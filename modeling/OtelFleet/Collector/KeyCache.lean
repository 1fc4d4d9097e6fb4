import OtelFleet.Collector.TenantAuth

/-! # The cache of the tenantauth extension

A linked list in the order of the last use, and a map from the keys to its elements.
-/

namespace OtelFleet.Collector.Cache

open TenantAuth

structure LruItem where
  key : String
  entry : CacheEntry

/-- `keyCache`.  Elements are known by their addresses; the front of `ll` is the most
    recently used. -/
structure KeyCache where
  maxEntries : Nat
  ll : List Nat
  items : AList fun _ : String => Nat
  value : Nat → LruItem
  allocated : Nat

def newKeyCache (maxEntries : Nat) : KeyCache := ⟨maxEntries, [], ∅, fun _ => ⟨"", .invalid 0⟩, 0⟩

def moveToFront (el : Nat) (ll : List Nat) : List Nat := el :: ll.erase el

def KeyCache.get (c : KeyCache) (hash : String) : Option CacheEntry × KeyCache :=
  match c.items.lookup hash with
  | none => (none, c)
  | some el => (some (c.value el).entry, { c with ll := moveToFront el c.ll })

/-- The loop of `put`: while there are too many, the element at the back goes.  The
    elements are given from the back. -/
def evict (maxEntries : Nat) (value : Nat → LruItem) :
    List Nat → (AList fun _ : String => Nat) → List Nat × AList fun _ : String => Nat
  | [], items => ([], items)
  | oldest :: rest, items =>
    if items.keys.length > maxEntries then evict maxEntries value rest (items.erase (value oldest).key)
    else (oldest :: rest, items)

def KeyCache.put (c : KeyCache) (hash : String) (e : CacheEntry) : KeyCache :=
  match c.items.lookup hash with
  | some el => { c with value := Function.update c.value el ⟨(c.value el).key, e⟩, ll := moveToFront el c.ll }
  | none =>
    let value := Function.update c.value c.allocated ⟨hash, e⟩
    let (ll, items) := evict c.maxEntries value (c.allocated :: c.ll).reverse (c.items.insert hash c.allocated)
    { c with value := value, ll := ll.reverse, items := items, allocated := c.allocated + 1 }

end OtelFleet.Collector.Cache
