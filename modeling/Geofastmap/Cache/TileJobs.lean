import Mathlib.Tactic.Linarith
import Geofastmap.Cache.Keys
import Geofastmap.Import.Json
import Geofastmap.Interleave.Pool

/-!
# Geofastmap.Cache.TileJobs

Tiles of a search: the route for dynamic tiles with query parameters, the queue of tile jobs in
Redis, and the workers that take jobs from it (`tile_queue_worker.py`). Every command to Redis is
one atomic step and may fail, before or after its effect; programs may be stopped anywhere, keys
expire, and the clock moves.

`found` and `served` are ghosts: the results that searches have stored, and the responses.

* `Tidy` : jobs are tiles of a search that had a result, the queue is no longer than its limit, and
  what is cached or served for a tile is the tile of such a result.
* `tile_jobs_tidy` : it holds in every run.
-/

namespace Geofastmap
namespace Cache
namespace TileJobs

open Import Interleave Redis

structure TileJob where
  collectionId : Text
  paramsKey : ParamsKey
  z : Int
  x : Int
  y : Int
  /-- Unix time. -/
  enqueuedAt : Int

structure Found where
  collectionId : Text
  paramsKey : ParamsKey
  geojson : Text

structure Served where
  collectionId : Text
  paramsKey : ParamsKey
  z : Int
  x : Int
  y : Int
  payload : Text

structure Server where
  store : Store
  /-- The list `geofastmap:tile_jobs`, its left end first. -/
  queue : List TileJob
  now : Int
  found : List Found
  served : List Served

/-- The settings of the queue. -/
structure QueueSettings where
  tilesDynamicUseQueue : Bool := false
  tilesDynamicQueueMaxJobs : Int := 512
  tilesDynamicQueueJobMaxAgeSeconds : Int := 30

/-- `filter_geojson_to_tile_bbox`, `not fc.get("features")` and `encode_geojson_to_mvt`. -/
structure Encoder where
  filter : Text → Int → Int → Int → Except Raised Text
  noFeatures : Text → Bool
  encode : Text → Text → Int → Int → Int → Except Raised Text

inductive Label where
  | redis | clock | reply

abbrev Tiler := Prog Label Server Raised

section
variable (cfg : Settings) (qs : QueueSettings) (enc : Encoder)

/-- `try: p except Exception: default`. -/
def orElse {α : Type} (p : Tiler α) (default : α) : Tiler α :=
  MonadExcept.tryCatch p fun _ => pure default

/-! ## The caches and the queue -/

def readCache (k : Key) : Tiler (Option Text) :=
  orElse (Prog.read .redis fun s => read cfg s.store k) none

def writeCache (k : Key) (payload : Text) : Tiler Unit :=
  orElse (Prog.write .redis fun s => { s with store := write cfg s.store k payload }) ()

/-- `set_search_result`. -/
def storeSearchResult (c : Text) (pk : ParamsKey) (geojson : Text) : Tiler Unit :=
  orElse (Prog.write .redis fun s =>
    { s with store := setSearchResult cfg s.store c pk geojson, found := ⟨c, pk, geojson⟩ :: s.found })
    ()

/-- `LPUSH` and `LTRIM` in one transaction. -/
def Server.push (s : Server) (j : TileJob) : Server :=
  { s with queue :=
      if 0 < qs.tilesDynamicQueueMaxJobs then
        (j :: s.queue).take qs.tilesDynamicQueueMaxJobs.toNat
      else j :: s.queue }

/-- `push_tile_job`. -/
def pushTileJob (c : Text) (pk : ParamsKey) (z x y : Int) : Tiler Unit :=
  orElse (do
    let now ← Prog.read .clock Server.now
    Prog.write .redis fun s => s.push qs ⟨c, pk, z, x, y, now⟩) ()

/-- `BLPOP`, or nothing when the time is up. -/
def blpop : Tiler (Option TileJob) :=
  Prog.atomic .redis fun s =>
    match s.queue with
    | [] => .ok (none, s)
    | j :: rest => .ok (some j, { s with queue := rest })

/-- The loop of `pop_tile_job`, which passes over stale jobs until its deadline. -/
def popFresh : Nat → Tiler (Option TileJob)
  | 0 => pure none
  | rounds + 1 => do
    let result ← blpop
    match result with
    | none => return none
    | some job =>
      let now ← Prog.read .clock Server.now
      if 0 < qs.tilesDynamicQueueJobMaxAgeSeconds ∧ job.enqueuedAt ≠ 0 ∧
          qs.tilesDynamicQueueJobMaxAgeSeconds < now - job.enqueuedAt then
        popFresh rounds
      else return some job

/-- `pop_tile_job`. -/
def popTileJob (rounds : Nat) : Tiler (Option TileJob) := orElse (popFresh qs rounds) none

def pushChildren (c : Text) (pk : ParamsKey) (z x y : Int) : Tiler Unit := do
  pushTileJob qs c pk (z + 1) (x * 2) (y * 2)
  pushTileJob qs c pk (z + 1) (x * 2 + 1) (y * 2)
  pushTileJob qs c pk (z + 1) (x * 2) (y * 2 + 1)
  pushTileJob qs c pk (z + 1) (x * 2 + 1) (y * 2 + 1)

/-- The parent and the children of a tile. -/
def pushAdjacent (c : Text) (pk : ParamsKey) (z x y : Int) : Tiler Unit := do
  (if 0 < z then pushTileJob qs c pk (z - 1) (x / 2) (y / 2) else pure ())
  (if z < 22 then pushChildren qs c pk z x y else pure ())

/-! ## The workers -/

/-- `_encode_job`. -/
def encodeJob (job : TileJob) : Tiler Unit := do
  let cached ← readCache cfg (.search job.collectionId job.paramsKey)
  match cached with
  | none => return ()
  | some geojson =>
    if geojson = [] then return ()
    else
      let filtered ← Prog.done (enc.filter geojson job.z job.x job.y)
      match enc.encode filtered job.collectionId job.z job.x job.y with
      | .error _ => return ()
      | .ok tile =>
        writeCache cfg (.tileParams job.collectionId job.z job.x job.y job.paramsKey) tile
        pushAdjacent qs job.collectionId job.paramsKey job.z job.x job.y

/-- One round of `_consumer_process`. -/
def consume (rounds : Nat) : Tiler Unit := do
  let job ← popTileJob qs rounds
  match job with
  | none => return ()
  | some job => orElse (encodeJob cfg qs enc job) ()

/-! ## The routes -/

/-- `ensure_search_result_cached`, where the query finds a result or fails. -/
def ensureSearchResultCached (c : Text) (pk : ParamsKey) (query : Option Text) : Tiler Bool := do
  let cached ← readCache cfg (.search c pk)
  if cached.isSome then return true
  else
    let again ← readCache cfg (.search c pk)
    if again.isSome then return true
    else
      match query with
      | none => return false
      | some geojson =>
        storeSearchResult cfg c pk geojson
        return true

def respond (c : Text) (pk : ParamsKey) (z x y : Int) (payload : Text) : Tiler Unit :=
  Prog.write .reply fun s => { s with served := ⟨c, pk, z, x, y, payload⟩ :: s.served }

def httpError (status : String) : Raised := ("HTTPException".toList, status.toList)

/-- The tile of a cached result, built within the request. -/
def buildTile (c : Text) (pk : ParamsKey) (z x y : Int) (geojson : Text) : Tiler Unit := do
  let filtered ← Prog.done (enc.filter geojson z x y)
  if enc.noFeatures filtered then
    writeCache cfg (.tileParams c z x y pk) []
    respond c pk z x y []
  else
    let payload ← Prog.done (enc.encode filtered c z x y)
    writeCache cfg (.tileParams c z x y pk) payload
    (if qs.tilesDynamicUseQueue then pushAdjacent qs c pk z x y else pure ())
    respond c pk z x y payload

/-- `get_tiles_dynamic` for a request that is answered from the result of its search. -/
def dynamicTile (c : Text) (pk : ParamsKey) (z x y : Int) (query : Option Text) : Tiler Unit := do
  if z < 0 ∨ 22 < z then throw (httpError "400")
  else if x < 0 ∨ 2 ^ z.toNat ≤ x ∨ y < 0 ∨ 2 ^ z.toNat ≤ y then throw (httpError "400")
  else
    let cached ← readCache cfg (.tileParams c z x y pk)
    match cached with
    | some payload => respond c pk z x y payload
    | none =>
      let found ← ensureSearchResultCached cfg c pk query
      if found then
        let built ← readCache cfg (.tileParams c z x y pk)
        match built with
        | some payload => respond c pk z x y payload
        | none =>
          let result ← readCache cfg (.search c pk)
          match result with
          | none => throw (httpError "503")
          | some geojson =>
            if geojson = [] then throw (httpError "503")
            else buildTile cfg qs enc c pk z x y geojson
      else throw (httpError "503")

/-- What may be started: requests, workers, and what happens to Redis by itself. -/
inductive Task where
  | tile (c : Text) (pk : ParamsKey) (z x y : Int) (query : Option Text)
  | consume (rounds : Nat)
  /-- The items route, which stores the page that it lists. -/
  | warm (c : Text) (pk : ParamsKey) (geojson : Text)
  | invalidate (c : Text)
  | expire (key : Text)
  | tick (seconds : Nat)

/-- `invalidate_collection_cache`. -/
def invalidate (c : Text) : Tiler Unit :=
  orElse (Prog.forEach (fun pattern =>
    Prog.write .redis fun s => { s with store := s.store.sweep pattern }) (patterns c)) ()

def Task.program : Task → Tiler Unit
  | .tile c pk z x y query => dynamicTile cfg qs enc c pk z x y query
  | .consume rounds => TileJobs.consume cfg qs enc rounds
  | .warm c pk geojson => storeSearchResult cfg c pk geojson
  | .invalidate c => TileJobs.invalidate c
  | .expire key =>
    Prog.write .redis fun s => { s with store := s.store.filter fun e => e.1 != key }
  | .tick seconds => Prog.write .clock fun s => { s with now := s.now + seconds }

end

/-! ## What holds in every run -/

/-- A tile of the pyramid down to zoom 22. -/
def TileIn (z x y : Int) : Prop :=
  0 ≤ z ∧ z ≤ 22 ∧ (0 ≤ x ∧ x < 2 ^ z.toNat) ∧ 0 ≤ y ∧ y < 2 ^ z.toNat

/-- The tile of a result: encoded, or empty where no feature is in it. -/
def TileOf (enc : Encoder) (c : Text) (z x y : Int) (geojson payload : Text) : Prop :=
  ∃ filtered, enc.filter geojson z x y = .ok filtered ∧
    (enc.encode filtered c z x y = .ok payload ∨ enc.noFeatures filtered = true ∧ payload = [])

/-- A payload for a tile is that of a result which the search once had. -/
def TileFound (enc : Encoder) (found : List Found) (c : Text) (pk : ParamsKey) (z x y : Int)
    (payload : Text) : Prop :=
  ∃ f ∈ found, f.collectionId = c ∧ f.paramsKey = pk ∧ TileOf enc c z x y f.geojson payload

structure Tidy (cfg : Settings) (qs : QueueSettings) (enc : Encoder) (s : Server) : Prop where
  jobs : ∀ j ∈ s.queue, TileIn j.z j.x j.y ∧
    ∃ f ∈ s.found, f.collectionId = j.collectionId ∧ f.paramsKey = j.paramsKey
  bounded : 0 < qs.tilesDynamicQueueMaxJobs →
    (s.queue.length : Int) ≤ qs.tilesDynamicQueueMaxJobs
  searches : ∀ c pk geojson, read cfg s.store (.search c pk) = some geojson →
    ⟨c, pk, geojson⟩ ∈ s.found
  tiles : ∀ c z x y pk payload, read cfg s.store (.tileParams c z x y pk) = some payload →
    TileFound enc s.found c pk z x y payload
  served : ∀ r ∈ s.served,
    TileFound enc s.found r.collectionId r.paramsKey r.z r.x r.y r.payload

section
variable {cfg : Settings} {qs : QueueSettings} {enc : Encoder}

theorem tileIn_parent {z x y : Int} (h : TileIn z x y) (hz : 0 < z) :
    TileIn (z - 1) (x / 2) (y / 2) := by
  obtain ⟨h0, h22, ⟨hx0, hx⟩, hy0, hy⟩ := h
  obtain ⟨n, rfl⟩ : ∃ n : Nat, z = (n : Int) + 1 := ⟨(z - 1).toNat, by omega⟩
  have hpow : (2 : Int) ^ ((n : Int) + 1).toNat = 2 ^ n * 2 := by
    rw [show ((n : Int) + 1).toNat = n + 1 by omega, pow_succ]
  have hn : ((n : Int) + 1 - 1).toNat = n := by omega
  rw [hpow] at hx hy
  refine ⟨by omega, by omega, ?_, ?_⟩
  · rw [hn]
    constructor
    · omega
    · omega
  · rw [hn]
    constructor
    · omega
    · omega

theorem tileIn_child {z x y : Int} (h : TileIn z x y) (hz : z < 22) {dx dy : Int}
    (hdx : dx = 0 ∨ dx = 1) (hdy : dy = 0 ∨ dy = 1) :
    TileIn (z + 1) (x * 2 + dx) (y * 2 + dy) := by
  obtain ⟨h0, h22, ⟨hx0, hx⟩, hy0, hy⟩ := h
  have hpow : (2 : Int) ^ (z + 1).toNat = 2 ^ z.toNat * 2 := by
    rw [show (z + 1).toNat = z.toNat + 1 by omega, pow_succ]
  refine ⟨by omega, by omega, ?_, ?_⟩
  · rw [hpow]
    constructor
    · omega
    · omega
  · rw [hpow]
    constructor
    · omega
    · omega

theorem TileFound.mono {found found' : List Found} (hsub : found ⊆ found') {c : Text}
    {pk : ParamsKey} {z x y : Int} {payload : Text} (h : TileFound enc found c pk z x y payload) :
    TileFound enc found' c pk z x y payload := by
  obtain ⟨f, hf, h⟩ := h
  exact ⟨f, hsub hf, h⟩

/-! ## The steps keep it -/

section Steps
variable {s : Server}

/-- Keys may be lost at any time. -/
theorem Tidy.lose (h : Tidy cfg qs enc s) {store : Store}
    (hstore : ∀ k v, read cfg store k = some v → read cfg s.store k = some v) :
    Tidy cfg qs enc { s with store := store } where
  jobs := h.jobs
  bounded := h.bounded
  searches c pk geojson hget := h.searches c pk geojson (hstore _ _ hget)
  tiles c z x y pk payload hget := h.tiles c z x y pk payload (hstore _ _ hget)
  served := h.served

theorem Tidy.sweep (h : Tidy cfg qs enc s) (pattern : Text) :
    Tidy cfg qs enc { s with store := s.store.sweep pattern } := by
  refine h.lose fun k v hread => ?_
  unfold read at hread ⊢
  split
  · rename_i hserves
    rw [if_pos hserves, Keyspace.get_sweep] at hread
    split at hread
    · cases hread
    · exact hread
  · rename_i hserves
    rw [if_neg hserves] at hread
    cases hread

theorem Tidy.expire (h : Tidy cfg qs enc s) (key : Text) :
    Tidy cfg qs enc { s with store := s.store.filter fun e => e.1 != key } := by
  refine h.lose fun k v hread => ?_
  unfold read at hread ⊢
  split
  · rename_i hserves
    rw [if_pos hserves, Keyspace.get_filter s.store (· != key)] at hread
    split at hread
    · exact hread
    · cases hread
  · rename_i hserves
    rw [if_neg hserves] at hread
    cases hread

theorem Tidy.storeSearch (h : Tidy cfg qs enc s) (c : Text) (pk : ParamsKey) (geojson : Text) :
    Tidy cfg qs enc { s with store := setSearchResult cfg s.store c pk geojson,
                             found := ⟨c, pk, geojson⟩ :: s.found } where
  jobs j hj := by
    obtain ⟨hin, f, hf, hfc⟩ := h.jobs j hj
    exact ⟨hin, f, List.mem_cons_of_mem _ hf, hfc⟩
  bounded := h.bounded
  searches c' pk' geojson' hread := by
    rw [setSearchResult, read_write] at hread
    split at hread
    · rename_i hsame
      cases hread
      cases hsame.1
      exact List.mem_cons_self
    · exact List.mem_cons_of_mem _ (h.searches c' pk' geojson' hread)
  tiles c' z x y pk' payload hread := by
    rw [setSearchResult, read_write, if_neg (by simp)] at hread
    exact (h.tiles c' z x y pk' payload hread).mono (List.subset_cons_self _ _)
  served r hr := (h.served r hr).mono (List.subset_cons_self _ _)

theorem Tidy.storeTile (h : Tidy cfg qs enc s) {c : Text} {pk : ParamsKey} {z x y : Int}
    {payload : Text} (hfound : TileFound enc s.found c pk z x y payload) :
    Tidy cfg qs enc { s with store := write cfg s.store (.tileParams c z x y pk) payload } where
  jobs := h.jobs
  bounded := h.bounded
  searches c' pk' geojson hread := by
    rw [read_write, if_neg (by simp)] at hread
    exact h.searches c' pk' geojson hread
  tiles c' z' x' y' pk' payload' hread := by
    rw [read_write] at hread
    split at hread
    · rename_i hsame
      cases hread
      cases hsame.1
      exact hfound
    · exact h.tiles c' z' x' y' pk' payload' hread
  served := h.served

theorem Tidy.push (h : Tidy cfg qs enc s) {j : TileJob} (hin : TileIn j.z j.x j.y)
    (hfound : ∃ f ∈ s.found, f.collectionId = j.collectionId ∧ f.paramsKey = j.paramsKey) :
    Tidy cfg qs enc (s.push qs j) where
  jobs j' hj' := by
    have hmem : j' ∈ j :: s.queue := by
      simp only [Server.push] at hj'
      split at hj'
      · exact List.mem_of_mem_take hj'
      · exact hj'
    rcases List.mem_cons.mp hmem with rfl | hmem
    · exact ⟨hin, hfound⟩
    · exact h.jobs j' hmem
  bounded hmax := by
    have hlen : ((j :: s.queue).take qs.tilesDynamicQueueMaxJobs.toNat).length ≤
        qs.tilesDynamicQueueMaxJobs.toNat := List.length_take_le _ _
    simp only [Server.push, if_pos hmax]
    omega
  searches := h.searches
  tiles := h.tiles
  served := h.served

theorem Tidy.pop (h : Tidy cfg qs enc s) {j : TileJob} {rest : List TileJob}
    (hqueue : s.queue = j :: rest) : Tidy cfg qs enc { s with queue := rest } where
  jobs j' hj' := h.jobs j' (hqueue ▸ List.mem_cons_of_mem _ hj')
  bounded hmax := by
    have hlen := h.bounded hmax
    rw [hqueue, List.length_cons] at hlen
    simp only
    omega
  searches := h.searches
  tiles := h.tiles
  served := h.served

theorem Tidy.serve (h : Tidy cfg qs enc s) {r : Served}
    (hfound : TileFound enc s.found r.collectionId r.paramsKey r.z r.x r.y r.payload) :
    Tidy cfg qs enc { s with served := r :: s.served } where
  jobs := h.jobs
  bounded := h.bounded
  searches := h.searches
  tiles := h.tiles
  served r' hr' := by
    rcases List.mem_cons.mp hr' with rfl | hr'
    · exact hfound
    · exact h.served r' hr'

end Steps

/-! ## The programs keep it -/

/-- A fact about the results found so far that further results leave true. -/
def Grows (φ : List Found → Prop) : Prop := ∀ F F' : List Found, F ⊆ F' → φ F → φ F'

theorem grows_true : Grows fun _ => True := fun _ _ _ _ => trivial

theorem Grows.and {φ ψ : List Found → Prop} (hφ : Grows φ) (hψ : Grows ψ) :
    Grows fun F => φ F ∧ ψ F :=
  fun F F' hsub h => ⟨hφ F F' hsub h.1, hψ F F' hsub h.2⟩

variable (cfg qs enc) in
/-- Every step keeps `Tidy` and forgets no result. -/
def tidily : Guarantee Label Server where
  inv := Tidy cfg qs enc
  rely s t := s.found ⊆ t.found
  rel s t := s.found ⊆ t.found
  must _ _ := True
  rely_refl _ := List.Subset.refl _
  rely_trans := List.Subset.trans
  rel_refl _ := List.Subset.refl _

variable (cfg qs enc) in
/-- From what is known, the program learns `V` about what it returns. -/
def Learns {α : Type} (φ : List Found → Prop) (p : Tiler α) (V : α → List Found → Prop) : Prop :=
  Triple anything (tidily cfg qs enc) (fun s => φ s.found) p fun r s =>
    φ s.found ∧ ∀ a, r = .ok a → V a s.found

section Rules
variable {α β : Type} {φ : List Found → Prop} {V : α → List Found → Prop}
  {W : β → List Found → Prop}

theorem Learns.pure {a : α} (h : ∀ F, φ F → V a F) : Learns cfg qs enc φ (pure a) V :=
  Triple.pure a fun s _ hs => ⟨hs, by rintro b ⟨⟩; exact h _ hs⟩

theorem Learns.throw (e : Raised) : Learns cfg qs enc φ (throw e : Tiler α) V :=
  Triple.throw e fun _ _ hs => ⟨hs, nofun⟩

theorem Learns.bind {p : Tiler α} {f : α → Tiler β} (h : Learns cfg qs enc φ p V)
    (hf : ∀ a, Learns cfg qs enc (fun F => φ F ∧ V a F) (f a) W) :
    Learns cfg qs enc φ (p >>= f) W := by
  refine Triple.bind h (fun a => (hf a).conseq ?_ ?_) fun e s _ hs => ⟨hs.1, nofun⟩
  · exact fun s _ hs => ⟨hs.1, hs.2 a rfl⟩
  · exact fun r s _ hs => ⟨hs.1.1, hs.2⟩

/-- A part whose result is not used. -/
theorem Learns.then {p : Tiler α} {q : Tiler β} (h : Learns cfg qs enc φ p fun _ _ => True)
    (hq : Learns cfg qs enc φ q W) : Learns cfg qs enc φ (p >>= fun _ => q) W :=
  h.bind fun _ => hq.conseq (fun _ _ hs => hs.1) fun _ _ _ hs => ⟨⟨hs.1, trivial⟩, hs.2⟩

theorem Learns.orElse {p : Tiler α} {default : α} (h : Learns cfg qs enc φ p V)
    (hd : ∀ F, φ F → V default F) : Learns cfg qs enc φ (orElse p default) V :=
  Triple.tryCatch h (fun _ _ _ hs => hs) fun _ =>
    Triple.pure default fun s _ hs => ⟨hs.1, by rintro b ⟨⟩; exact hd _ hs.1⟩

theorem Learns.of {p : Except Raised α} (h : ∀ F a, φ F → p = .ok a → V a F) :
    Learns cfg qs enc φ (Prog.done p) V :=
  fun _ _ hs => ⟨hs, fun a ha => h _ a hs ha⟩

theorem stable_grows (hφ : Grows φ) : Stable (tidily cfg qs enc) fun s => φ s.found :=
  fun _ _ hst _ hs => hφ _ _ hst hs

theorem Learns.read (hφ : Grows φ) {l : Label} {f : Server → α}
    (h : ∀ s, Tidy cfg qs enc s → φ s.found → V (f s) s.found) :
    Learns cfg qs enc φ (Prog.read l f) V :=
  Triple.read l f (stable_grows hφ)
    (fun s hs hp _ => ⟨trivial, hp, by rintro a ⟨⟩; exact h s hs hp⟩)
    fun _ _ _ _ _ hp => ⟨hp, nofun⟩

theorem Learns.write (hφ : Grows φ) {l : Label} {g : Server → Server}
    (h : ∀ s, Tidy cfg qs enc s → φ s.found → Tidy cfg qs enc (g s) ∧ s.found ⊆ (g s).found) :
    Learns cfg qs enc φ (Prog.write l g) fun _ _ => True := by
  refine Triple.write l g (stable_grows hφ) (fun s hs hp _ => ?_) (fun _ _ _ _ hp => ⟨hp, nofun⟩)
    fun _ s _ hs hp _ => ⟨hφ _ _ (h s hs hp).2 hp, nofun⟩
  obtain ⟨htidy, hsub⟩ := h s hs hp
  exact ⟨trivial, htidy, hsub, hφ _ _ hsub hp, fun _ _ => trivial⟩

end Rules

theorem Learns.weaken {α : Type} {φ ψ : List Found → Prop} {p : Tiler α}
    {V : α → List Found → Prop} (h : Learns cfg qs enc φ p V) (hψ : Grows ψ)
    (hφ : ∀ F, ψ F → φ F) : Learns cfg qs enc ψ p V := by
  refine (Triple.frame (R := fun s => ψ s.found) (stable_grows hψ) (fun _ _ hst hs => hψ _ _ hst hs)
    h).conseq (fun s _ hs => ⟨hs, hφ _ hs⟩) fun r s _ hs => ⟨hs.1, hs.2.2⟩

theorem grows_search (c : Text) (pk : ParamsKey) (r : Option Text) :
    Grows fun F => ∀ geojson ∈ r, ⟨c, pk, geojson⟩ ∈ F :=
  fun _ _ hsub h geojson hr => hsub (h geojson hr)

theorem grows_tile (enc : Encoder) (c : Text) (pk : ParamsKey) (z x y : Int) (r : Option Text) :
    Grows fun F => ∀ payload ∈ r, TileFound enc F c pk z x y payload :=
  fun _ _ hsub h payload hr => (h payload hr).mono hsub

section Programs
variable {φ : List Found → Prop} (hφ : Grows φ) {c : Text} {pk : ParamsKey} {z x y : Int}
include hφ

theorem learns_search : Learns cfg qs enc φ (readCache cfg (.search c pk)) fun r F =>
    ∀ geojson ∈ r, ⟨c, pk, geojson⟩ ∈ F :=
  Learns.orElse (Learns.read hφ fun _ hs _ geojson hread => hs.searches c pk geojson hread) nofun

theorem learns_tile : Learns cfg qs enc φ (readCache cfg (.tileParams c z x y pk)) fun r F =>
    ∀ payload ∈ r, TileFound enc F c pk z x y payload :=
  Learns.orElse (Learns.read hφ fun _ hs _ payload hread => hs.tiles c z x y pk payload hread) nofun

theorem learns_writeTile {payload : Text}
    (h : ∀ F, φ F → TileFound enc F c pk z x y payload) :
    Learns cfg qs enc φ (writeCache cfg (.tileParams c z x y pk) payload) fun _ _ => True :=
  Learns.orElse (Learns.write hφ fun s hs hp =>
    ⟨hs.storeTile (h s.found hp), List.Subset.refl _⟩) fun _ _ => trivial

theorem learns_storeSearchResult {geojson : Text} :
    Learns cfg qs enc φ (storeSearchResult cfg c pk geojson) fun _ _ => True :=
  Learns.orElse (Learns.write hφ fun _ hs _ =>
    ⟨hs.storeSearch c pk geojson, List.subset_cons_self _ _⟩) fun _ _ => trivial

theorem learns_respond {payload : Text} (h : ∀ F, φ F → TileFound enc F c pk z x y payload) :
    Learns cfg qs enc φ (respond c pk z x y payload) fun _ _ => True :=
  Learns.write hφ fun s hs hp => ⟨hs.serve (h s.found hp), List.Subset.refl _⟩

theorem learns_pushTileJob (hin : TileIn z x y)
    (h : ∀ F, φ F → ∃ f ∈ F, f.collectionId = c ∧ f.paramsKey = pk) :
    Learns cfg qs enc φ (pushTileJob qs c pk z x y) fun _ _ => True := by
  refine Learns.orElse (Learns.bind (V := fun _ _ => True) (Learns.read hφ fun _ _ _ => trivial)
    fun now => ?_) fun _ _ => trivial
  refine Learns.write (hφ.and grows_true) fun s hs hp => ⟨hs.push hin (h _ hp.1), ?_⟩
  exact List.Subset.refl _

theorem learns_pushChildren (hin : TileIn z x y) (hz : z < 22)
    (h : ∀ F, φ F → ∃ f ∈ F, f.collectionId = c ∧ f.paramsKey = pk) :
    Learns cfg qs enc φ (pushChildren qs c pk z x y) fun _ _ => True := by
  have hchild : ∀ dx dy, (dx = 0 ∨ dx = 1) → (dy = 0 ∨ dy = 1) →
      Learns cfg qs enc φ (pushTileJob qs c pk (z + 1) (x * 2 + dx) (y * 2 + dy))
        fun _ _ => True :=
    fun dx dy hdx hdy => learns_pushTileJob hφ (tileIn_child hin hz hdx hdy) h
  have h00 := hchild 0 0 (Or.inl rfl) (Or.inl rfl)
  have h10 := hchild 1 0 (Or.inr rfl) (Or.inl rfl)
  have h01 := hchild 0 1 (Or.inl rfl) (Or.inr rfl)
  simp only [add_zero] at h00 h10 h01
  exact h00.then (h10.then (h01.then (hchild 1 1 (Or.inr rfl) (Or.inr rfl))))

theorem learns_pushAdjacent (hin : TileIn z x y)
    (h : ∀ F, φ F → ∃ f ∈ F, f.collectionId = c ∧ f.paramsKey = pk) :
    Learns cfg qs enc φ (pushAdjacent qs c pk z x y) fun _ _ => True := by
  refine Learns.then (p := if 0 < z then _ else _) ?_ ?_
  · split
    · rename_i hz
      exact learns_pushTileJob hφ (tileIn_parent hin hz) h
    · exact Learns.pure fun _ _ => trivial
  · split
    · rename_i hz
      exact learns_pushChildren hφ hin hz h
    · exact Learns.pure fun _ _ => trivial

theorem learns_blpop : Learns cfg qs enc φ blpop fun r F => ∀ j ∈ r, TileIn j.z j.x j.y ∧
    ∃ f ∈ F, f.collectionId = j.collectionId ∧ f.paramsKey = j.paramsKey := by
  refine Triple.atomic _ _ (stable_grows hφ) (fun _ _ _ _ => trivial) (fun s r s' hs hp _ hr => ?_)
    (fun s e _ _ _ he => ?_) fun _ _ _ _ _ hp => ⟨hp, nofun⟩
  · cases hqueue : s.queue with
    | nil =>
      rw [hqueue] at hr
      cases hr
      exact ⟨hs, List.Subset.refl _, ⟨hp, by rintro r ⟨⟩; nofun⟩, fun _ _ => ⟨hp, nofun⟩⟩
    | cons j rest =>
      rw [hqueue] at hr
      cases hr
      refine ⟨hs.pop hqueue, List.Subset.refl _, ⟨hp, ?_⟩, fun _ _ => ⟨hp, nofun⟩⟩
      rintro r ⟨⟩ j' ⟨⟩
      exact hs.jobs j (hqueue ▸ List.mem_cons_self)
  · cases hqueue : s.queue <;> simp only [hqueue] at he <;> cases he

omit hφ in
theorem grows_job (r : Option TileJob) : Grows fun F => ∀ j ∈ r, TileIn j.z j.x j.y ∧
    ∃ f ∈ F, f.collectionId = j.collectionId ∧ f.paramsKey = j.paramsKey := by
  intro F F' hsub h j hj
  obtain ⟨hin, f, hf, hfc⟩ := h j hj
  exact ⟨hin, f, hsub hf, hfc⟩

theorem learns_popFresh (rounds : Nat) : Learns cfg qs enc φ (popFresh qs rounds) fun r F =>
    ∀ j ∈ r, TileIn j.z j.x j.y ∧
      ∃ f ∈ F, f.collectionId = j.collectionId ∧ f.paramsKey = j.paramsKey := by
  induction rounds with
  | zero => exact Learns.pure nofun
  | succ rounds ih =>
    refine (learns_blpop hφ).bind fun r => ?_
    cases r with
    | none => exact Learns.pure nofun
    | some job =>
      have hgrows := hφ.and (grows_job (some job))
      refine Learns.bind (V := fun _ _ => True) (Learns.read hgrows fun _ _ _ => trivial)
        fun now => ?_
      split
      · exact (ih.weaken (hgrows.and grows_true)) fun F hF => hF.1.1
      · exact Learns.pure fun F hF => hF.1.2

theorem learns_encodeJob (job : TileJob) (hin : TileIn job.z job.x job.y) :
    Learns cfg qs enc φ (encodeJob cfg qs enc job) fun _ _ => True := by
  refine (learns_search hφ).bind fun cached => ?_
  cases cached with
  | none => exact Learns.pure fun _ _ => trivial
  | some geojson =>
    dsimp only
    split
    · exact Learns.pure fun _ _ => trivial
    · refine Learns.bind (V := fun filtered _ =>
        enc.filter geojson job.z job.x job.y = .ok filtered) (Learns.of fun _ _ _ h => h)
        fun filtered => ?_
      have hgrows : Grows fun F => (φ F ∧ ∀ g ∈ some geojson,
          ⟨job.collectionId, job.paramsKey, g⟩ ∈ F) ∧
          enc.filter geojson job.z job.x job.y = .ok filtered :=
        (hφ.and (grows_search _ _ _)).and fun _ _ _ h => h
      split
      · exact Learns.pure fun _ _ => trivial
      · rename_i tile htile
        refine (learns_writeTile hgrows fun F hF => ?_).then
          (learns_pushAdjacent hgrows hin fun F hF => ?_)
        · exact ⟨_, hF.1.2 geojson rfl, rfl, rfl, filtered, hF.2, Or.inl htile⟩
        · exact ⟨_, hF.1.2 geojson rfl, rfl, rfl⟩

theorem learns_consume (rounds : Nat) :
    Learns cfg qs enc φ (consume cfg qs enc rounds) fun _ _ => True := by
  refine Learns.bind (Learns.orElse (learns_popFresh hφ rounds) nofun) fun job => ?_
  cases job with
  | none => exact Learns.pure fun _ _ => trivial
  | some job =>
    have hgrows := hφ.and (grows_job (some job))
    by_cases hin : TileIn job.z job.x job.y
    · exact Learns.orElse (learns_encodeJob hgrows job hin) fun _ _ => trivial
    · -- no such job is in the queue
      exact fun s _ hs => absurd (hs.2 job rfl).1 hin

theorem learns_ensure (query : Option Text) :
    Learns cfg qs enc φ (ensureSearchResultCached cfg c pk query) fun _ _ => True := by
  refine (learns_search hφ).bind fun cached => ?_
  have hgrows := hφ.and (grows_search c pk cached)
  split
  · exact Learns.pure fun _ _ => trivial
  · refine (learns_search hgrows).bind fun again => ?_
    split
    · exact Learns.pure fun _ _ => trivial
    · cases query with
      | none => exact Learns.pure fun _ _ => trivial
      | some geojson =>
        exact (learns_storeSearchResult (hgrows.and (grows_search c pk again))).then
          (Learns.pure fun _ _ => trivial)

theorem learns_buildTile (hin : TileIn z x y) {geojson : Text}
    (h : ∀ F, φ F → ⟨c, pk, geojson⟩ ∈ F) :
    Learns cfg qs enc φ (buildTile cfg qs enc c pk z x y geojson) fun _ _ => True := by
  refine Learns.bind (V := fun filtered _ => enc.filter geojson z x y = .ok filtered)
    (Learns.of fun _ _ _ hfilter => hfilter) fun filtered => ?_
  have hgrows : Grows fun F => φ F ∧ enc.filter geojson z x y = .ok filtered :=
    hφ.and fun _ _ _ hfilter => hfilter
  split
  · rename_i hempty
    have hfound : ∀ F, φ F ∧ enc.filter geojson z x y = .ok filtered →
        TileFound enc F c pk z x y [] := fun F hF =>
      ⟨_, h F hF.1, rfl, rfl, filtered, hF.2, Or.inr ⟨hempty, rfl⟩⟩
    exact (learns_writeTile hgrows hfound).then (learns_respond hgrows hfound)
  · refine Learns.bind (V := fun payload _ => enc.encode filtered c z x y = .ok payload)
      (Learns.of fun _ _ _ hencode => hencode) fun payload => ?_
    have hgrows' : Grows fun F => (φ F ∧ enc.filter geojson z x y = .ok filtered) ∧
        enc.encode filtered c z x y = .ok payload := hgrows.and fun _ _ _ hencode => hencode
    have hfound : ∀ F, (φ F ∧ enc.filter geojson z x y = .ok filtered) ∧
        enc.encode filtered c z x y = .ok payload → TileFound enc F c pk z x y payload :=
      fun F hF => ⟨_, h F hF.1.1, rfl, rfl, filtered, hF.1.2, Or.inl hF.2⟩
    refine (learns_writeTile hgrows' hfound).then (Learns.then ?_ (learns_respond hgrows' hfound))
    split
    · exact learns_pushAdjacent hgrows' hin fun F hF => ⟨_, h F hF.1.1, rfl, rfl⟩
    · exact Learns.pure fun _ _ => trivial

theorem learns_dynamicTile (query : Option Text) :
    Learns cfg qs enc φ (dynamicTile cfg qs enc c pk z x y query) fun _ _ => True := by
  unfold dynamicTile
  split
  · exact Learns.throw _
  · rename_i hz
    split
    · exact Learns.throw _
    · rename_i hxy
      have hin : TileIn z x y := ⟨by omega, by omega, by omega, by omega⟩
      refine (learns_tile hφ).bind fun cached => ?_
      have hgrows := hφ.and (grows_tile enc c pk z x y cached)
      cases cached with
      | some payload => exact learns_respond hgrows fun F hF => hF.2 payload rfl
      | none =>
        refine (learns_ensure hgrows query).bind fun found => ?_
        have hgrows := hgrows.and grows_true
        split
        · refine (learns_tile hgrows).bind fun built => ?_
          have hgrows := hgrows.and (grows_tile enc c pk z x y built)
          cases built with
          | some payload => exact learns_respond hgrows fun F hF => hF.2 payload rfl
          | none =>
            refine (learns_search hgrows).bind fun result => ?_
            have hgrows := hgrows.and (grows_search c pk result)
            cases result with
            | none => exact Learns.throw _
            | some geojson =>
              dsimp only
              split
              · exact Learns.throw _
              · exact learns_buildTile hgrows hin fun F hF => hF.2 geojson rfl
        · exact Learns.throw _

theorem learns_invalidate : Learns cfg qs enc φ (invalidate c) fun _ _ => True := by
  have hall : ∀ ps : List Text, Learns cfg qs enc φ (Prog.forEach (fun pattern =>
      Prog.write .redis fun s => { s with store := s.store.sweep pattern }) ps) fun _ _ => True := by
    intro ps
    induction ps with
    | nil => exact Learns.pure fun _ _ => trivial
    | cons pattern ps ih =>
      exact Learns.then (Learns.write hφ fun _ hs _ => ⟨hs.sweep pattern, List.Subset.refl _⟩) ih
  exact Learns.orElse (hall (patterns c)) fun _ _ => trivial

theorem learns_task (task : Task) :
    Learns cfg qs enc φ (task.program cfg qs enc) fun _ _ => True := by
  cases task with
  | tile c pk z x y query => exact learns_dynamicTile hφ query
  | consume rounds => exact learns_consume hφ rounds
  | warm c pk geojson => exact learns_storeSearchResult hφ
  | invalidate c => exact learns_invalidate hφ
  | expire key => exact Learns.write hφ fun _ hs _ => ⟨hs.expire key, List.Subset.refl _⟩
  | tick seconds =>
    exact Learns.write hφ fun _ hs _ =>
      ⟨⟨hs.jobs, hs.bounded, hs.searches, hs.tiles, hs.served⟩, List.Subset.refl _⟩

end Programs

/-- An empty Redis. -/
def Server.empty : Server := ⟨[], [], 0, [], []⟩

theorem tidy_empty : Tidy cfg qs enc .empty := by
  refine ⟨fun job hjob => absurd hjob List.not_mem_nil, fun hmax => ?_,
    fun c pk geojson hread => ?_, fun c z x y pk payload hread => ?_,
    fun t ht => absurd ht List.not_mem_nil⟩
  · simp only [Server.empty, List.length_nil]
    omega
  · simp [Server.empty, read] at hread
  · simp [Server.empty, read] at hread

variable (cfg qs enc) in
/-- In every run of requests, workers, listings, invalidations, expiries and failing commands, in
any order and stopped anywhere: jobs are valid tiles of a search that had a result, there are no
more of them than the limit, and what is cached or served for a tile is the tile of a result that
its own search had. -/
theorem tile_jobs_tidy (choices : List (Choice Task Raised)) :
    Tidy cfg qs enc
      ((⟨.empty, [], []⟩ : Config Label Server Raised).exec (Task.program cfg qs enc) choices).st := by
  have hinv : (tidily cfg qs enc).inv
      ((⟨.empty, [], []⟩ : Config Label Server Raised).exec (Task.program cfg qs enc)
        choices).st := by
    refine exec_keeps (fun _ _ h => h) (fun task s hs _ => ?_) tidy_empty choices
    exact Prog.wp_mono (fun _ _ _ _ => trivial) _ s hs (learns_task grows_true task s hs trivial)
  exact hinv

end

end TileJobs
end Cache
end Geofastmap
