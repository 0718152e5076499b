import FederatedQuery.Proofs.Store.Scanning

/-! Stores that come about by the operations on them. Their buckets keep the objects in the order
of the identities under which they are filed.
-/

namespace FederatedQuery.Store

/-- The store comes from the empty one by creating buckets and by filing and removing objects. -/
inductive Reachable : Store → Prop where
  | empty : Reachable empty
  | createBucket {store : Store} (before : Reachable store) (name identityField : String)
      : Reachable (store.createBucket name identityField)
  | insert {store : Store} (before : Reachable store) (name : String) (object : Value)
      : Reachable (store.insert name object).1
  | remove {store : Store} (before : Reachable store) (name : String) (identity : Value)
      : Reachable (store.remove name identity)
  | clearBucket {store : Store} (before : Reachable store) (name : String)
      : Reachable (store.clearBucket name)

/-- Filing objects one after the other is reaching further stores, by induction on them. -/
theorem Reachable.extend {store : Store} (reachable : store.Reachable) (name : String)
    (objects : List Value)
    : (store.extend name objects).1.Reachable := by
  induction objects generalizing store with
  | nil => exact reachable
  | cons object rest ih =>
      have next := reachable.insert name object
      simp only [Store.extend]
      split
      · next filed =>
        rw [filed] at next
        exact ih next
      · next refused => rwa [refused] at next

/-- The store's buckets keep their objects by strictly ascending identity. -/
def Ordered (store : Store) : Prop :=
  ∀ name held, store.bucket? name = some held → held.objects.Ascending

theorem Ordered.putBucket {store : Store} (ordered : store.Ordered) (name : String)
    {bucket : StoredBucket} (ascending : bucket.objects.Ascending)
    : (store.putBucket name bucket).Ordered := by
  intro other held found
  simp only [bucket?, Store.putBucket, Table.get?_put] at found
  split at found
  · exact Option.some.inj found ▸ ascending
  · exact ordered other held found

theorem Ordered.bucketOrNew {store : Store} (ordered : store.Ordered) (name : String)
    : (store.bucketOrNew name).objects.Ascending := by
  simp only [Store.bucketOrNew]
  cases found : store.bucket? name with
  | none => exact List.Pairwise.nil
  | some held => exact ordered name held found

/-- Every operation keeps the objects in order. -/
theorem Reachable.ordered {store : Store} (reachable : store.Reachable) : store.Ordered := by
  induction reachable with
  | empty => intro name held found; cases found
  | createBucket _ name _ ih =>
      apply ih.putBucket name
      cases found : Store.bucket? _ name with
      | none => exact List.Pairwise.nil
      | some held => exact ih name held found
  | insert _ name object ih =>
      simp only [Store.insert]
      split
      · split
        · exact ih.putBucket name (Table.ascending_insert (ih.bucketOrNew name) _ _)
        · exact ih.putBucket name (ih.bucketOrNew name)
      · exact ih
  | remove _ name identity ih =>
      simp only [Store.remove, Store.take]
      split
      · next found => exact ih.putBucket name (Table.ascending_erase (ih name _ found) _)
      · exact ih
  | clearBucket _ name ih =>
      simp only [Store.clearBucket]
      split
      · exact ih.putBucket name List.Pairwise.nil
      · exact ih

/-- The objects of a bucket, sorted by the identities under which they are filed. -/
def objectsByIdentity (store : Store) (bucket : String) : List Row :=
  ((store.bucket? bucket).map fun held =>
    (held.objects.mergeSort fun a b => a.1 ≤ b.1).map Prod.snd).getD []

/-- A reachable store has its objects sorted already. -/
theorem Reachable.objectsByIdentity_eq {store : Store} (reachable : store.Reachable)
    (bucket : String)
    : store.objectsByIdentity bucket = store.objects bucket := by
  simp only [objectsByIdentity, objects]
  cases found : store.bucket? bucket with
  | none => rfl
  | some held =>
      have ascending : held.objects.Pairwise fun a b => a.1 < b.1 :=
        List.pairwise_map.mp (reachable.ordered bucket held found)
      have sorted : held.objects.Pairwise fun a b => decide (a.1 ≤ b.1) = true :=
        ascending.imp fun below => decide_eq_true (Std.le_of_lt below)
      simp [List.mergeSort_of_pairwise sorted]

end FederatedQuery.Store
