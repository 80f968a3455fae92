import ChutesApi.Common.Dict
import Mathlib.Data.List.MinMax
import Mathlib.Data.List.Sort
/-!
# Which instances a request is sent to

`LeastConnManager` keeps the instances of a chute and asks Redis how many
connections each has. A request is sent to the first target of a list, the
instances with the fewest connections first, or those that are likely to
have the request's prefix in their cache.
-/

namespace ChutesApi

/-- **A connection manager**: the keys of `self.instances`, and
`concurrency or 1`. -/
structure LeastConnManager where
  chuteId : String
  instances : List String
  concurrency : ℕ
  nodup : instances.Nodup

/-- **What is left to chance**: the shuffle of each group, whether prefixes
are looked at, and the order in which a set is gone through. -/
structure Draws where
  shuffle : ℕ → List String → List String
  prefixAware : Bool
  setOrder : List String → List String
  shuffle_perm : ∀ count l, (shuffle count l).Perm l
  setOrder_perm : ∀ l, (setOrder l).Perm l

/-- What the caches answer: the connections of the instances, if Redis does,
and for a prefix which instances have it, if memcache does. -/
structure Caches where
  zcount : Option (String → ℕ)
  hasPrefix : String → Option (String → Bool)

namespace LeastConnManager

variable (m : LeastConnManager) (draws : Draws) (caches : Caches)

/-- **`get_connection_counts`**: no connections where Redis fails. -/
def getConnectionCounts (instanceIds : List String) : Dict String ℕ :=
  .ofList (instanceIds.map fun iid => (iid, (caches.zcount.getD fun _ => 0) iid))

/-- One round of the grouping: instances at the limit are left out. -/
def groupInstance (groups : Dict ℕ (List String)) (e : String × ℕ) : Dict ℕ (List String) :=
  if m.concurrency ≤ e.2 then groups
  else groups.set e.2 ((groups.get? e.2).getD [] ++ if e.1 ∈ m.instances then [e.1] else [])

/-- `grouped_by_count`, shuffled. -/
def groupedByCount (counts : Dict String ℕ) : Dict ℕ (List String) :=
  (counts.items.foldl m.groupInstance .empty).map draws.shuffle

/-- The groups in the order of their counts. -/
def byCount (grouped : Dict ℕ (List String)) : List String :=
  (grouped.keys.insertionSort (· ≤ ·)).flatMap fun count => (grouped.get? count).getD []

/-- The loop over the prefixes, which stops at the first one that some
instance has, and gives up where memcache fails. -/
def likelyCached (counts : Dict String ℕ) : List (ℕ × String) → Option (List String)
  | [] => none
  | (_, prefixHash) :: prefixes => do
    let hasPrefix ← caches.hasPrefix prefixHash
    let cached := counts.keys.filter fun iid => hasPrefix iid
    if cached = [] then likelyCached counts prefixes else some cached

/-- The instances that have the prefix and at most two connections more than
the one that has the fewest. -/
def routable (counts : Dict String ℕ) (minCount : ℕ) (cached : List String) : List String :=
  cached.filter fun iid => (((counts.get? iid).getD 0 : ℤ) - minCount).natAbs ≤ 2

/-- **`_handle_prefix_routing`.** -/
def handlePrefixRouting (counts : Dict String ℕ) (grouped : Dict ℕ (List String)) (minCount : ℕ)
    (prefixes : List (ℕ × String)) : Option (List String) := do
  let cached ← likelyCached caches counts prefixes
  let routable := routable counts minCount (draws.setOrder cached)
  if routable = [] then none
  else
    let preferred := ((routable.filter (· ∈ m.instances)).insertionSort fun a b =>
      (counts.get? a).getD 0 ≤ (counts.get? b).getD 0).take 3
    some (preferred ++ (grouped.keys.insertionSort (· ≤ ·)).flatMap fun count =>
      ((grouped.get? count).getD []).filter (· ∉ routable))

/-- **`get_targets`.** -/
def getTargets (avoid : List String) (prefixes : Option (List (ℕ × String))) :
    Except String (List String) :=
  let availableInstances := m.instances.filter (· ∉ avoid)
  if availableInstances = [] then .ok []
  else
    let counts := getConnectionCounts caches availableInstances
    match counts.values.min? with
    | none => .ok []
    | some minCount =>
      if m.concurrency ≤ minCount then
        let chuteId := m.chuteId
        .error s!"All instances overwhelmed for {chuteId}: min_count={minCount}"
      else
        let grouped := m.groupedByCount draws counts
        let preferred :=
          match prefixes with
          | some prefixes =>
            if prefixes ≠ [] ∧ draws.prefixAware then
              (m.handlePrefixRouting draws caches counts grouped minCount prefixes).getD []
            else []
          | none => []
        .ok (if preferred ≠ [] then preferred else byCount grouped)

end LeastConnManager

end ChutesApi
