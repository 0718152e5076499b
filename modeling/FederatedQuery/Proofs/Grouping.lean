import FederatedQuery.Grouping

/-! Classes of elements that share a key. The keys of the classes are the distinct keys of the
elements, and the members of a class are the elements with its key, both in the order of the
list.
-/

namespace FederatedQuery

variable {α κ : Type} [DecidableEq κ]

/-- The distinct elements of a list are distinct, by induction on its length: every element
is taken out of the rest of the list.
-/
theorem nodup_eraseDups (keys : List κ) : keys.eraseDups.Nodup := by
  match keys with
  | [] => simp
  | key :: rest =>
      rw [List.eraseDups_cons]
      refine List.nodup_cons.mpr ⟨?_, nodup_eraseDups _⟩
      simp [List.mem_eraseDups]
termination_by keys.length
decreasing_by
  have shorter := List.length_filter_le (fun k => !k == key) rest
  simp only [List.length_cons]
  omega

theorem eraseDups_of_nodup {keys : List κ} (distinct : keys.Nodup) : keys.eraseDups = keys := by
  induction keys with
  | nil => rfl
  | cons key rest ih =>
      obtain ⟨fresh, restDistinct⟩ := List.nodup_cons.mp distinct
      have kept : (rest.filter fun other => !other == key) = rest := by
        refine List.filter_eq_self.mpr fun other inside => ?_
        have different : other ≠ key := fun same => fresh (same ▸ inside)
        simpa using different
      rw [List.eraseDups_cons, kept, ih restDistinct]

theorem eraseDups_concat (keys : List κ) (key : κ)
    : (keys ++ [key]).eraseDups
      = if key ∈ keys.eraseDups then keys.eraseDups else keys.eraseDups ++ [key] := by
  rw [List.eraseDups_append]
  by_cases known : key ∈ keys <;>
    simp [List.removeAll, List.mem_eraseDups, List.eraseDups_cons, known]

/-- An element joins the class of its key, or founds one behind all others. The classes are
given by their keys, and by what each key has gathered.
-/
theorem addToClass_map (key : κ) (x : α) (keys : List κ) (gathered : κ → List α)
    (unique : keys.Nodup) (absent : key ∉ keys → gathered key = [])
    : addToClass key x (keys.map fun k => (k, gathered k))
      = (if key ∈ keys then keys else keys ++ [key]).map fun k =>
          (k, if key = k then gathered k ++ [x] else gathered k) := by
  induction keys with
  | nil => simp [addToClass, absent]
  | cons head rest ih =>
      obtain ⟨fresh, restUnique⟩ := List.nodup_cons.mp unique
      simp only [List.map_cons, addToClass]
      by_cases same : head = key
      · subst same
        have others : ∀ k ∈ rest, head ≠ k := fun k member same => fresh (same ▸ member)
        simp only [↓reduceIte, List.mem_cons, true_or, List.map_cons, List.cons.injEq, true_and]
        exact List.map_congr_left fun k member => by simp [others k member]
      · have different : key ≠ head := Ne.symm same
        have step := ih restUnique fun missing => absent (by simp [different, missing])
        simp only [same, ↓reduceIte, step, List.mem_cons, different, false_or]
        split <;> simp [different]

/-- The classes of a list, by induction on its end: their keys are the distinct keys of the
elements, and the members of a class are the elements with its key.
-/
theorem classes_eq (key : α → κ) (xs : List α)
    : classes key xs
      = (xs.map key).eraseDups.map fun k => (k, xs.filter fun x => key x = k) := by
  suffices reversed : ∀ ys : List α,
      classes key ys.reverse
      = (ys.reverse.map key).eraseDups.map fun k =>
          (k, ys.reverse.filter fun x => key x = k) by
    simpa using reversed xs.reverse
  intro ys
  induction ys with
  | nil => rfl
  | cons x rest ih =>
      have unique := nodup_eraseDups (rest.reverse.map key)
      have absent : key x ∉ (rest.reverse.map key).eraseDups
          → (rest.reverse.filter fun y => key y = key x) = [] := by
        intro missing
        refine List.filter_eq_nil_iff.mpr fun y member same => missing ?_
        rw [List.mem_eraseDups]
        exact List.mem_map.mpr ⟨y, member, by simpa using same⟩
      have gathered := addToClass_map (key x) x _
        (fun k => rest.reverse.filter fun y => key y = k) unique absent
      have split : classes key (rest.reverse ++ [x])
          = addToClass (key x) x (classes key rest.reverse) := by
        simp [classes]
      rw [List.reverse_cons, split, ih, gathered, List.map_append, List.map_singleton,
        eraseDups_concat]
      refine List.map_congr_left fun k _ => ?_
      by_cases same : key x = k <;> simp [List.filter_append, same]

theorem classes_congr {first second : α → κ} {xs : List α}
    (same : ∀ x ∈ xs, first x = second x)
    : classes first xs = classes second xs := by
  rw [classes_eq, classes_eq, List.map_congr_left same]
  refine List.map_congr_left fun k _ => ?_
  rw [List.filter_congr fun x inside => by rw [same x inside]]

/-- A class holds the elements with its key, and there is one at least. -/
theorem mem_classes_iff (key : α → κ) (xs : List α) (k : κ) (members : List α)
    : (k, members) ∈ classes key xs
      ↔ (∃ x ∈ xs, key x = k) ∧ members = xs.filter fun x => key x = k := by
  rw [classes_eq]
  simp only [List.mem_map, List.mem_eraseDups, Prod.mk.injEq]
  constructor
  · rintro ⟨_, founder, rfl, rfl⟩
    exact ⟨founder, rfl⟩
  · rintro ⟨founder, rfl⟩
    exact ⟨k, founder, rfl, rfl⟩

/-- An element that joins the classes is the only one that they gain. -/
theorem addToClass_perm (key : κ) (x : α) (found : List (κ × List α))
    : ((addToClass key x found).flatMap Prod.snd).Perm (x :: found.flatMap Prod.snd) := by
  induction found with
  | nil => simp [addToClass]
  | cons entry rest ih =>
      obtain ⟨k, members⟩ := entry
      simp only [addToClass]
      split
      · simp only [List.flatMap_cons, List.append_assoc, List.singleton_append]
        exact List.perm_middle
      · simp only [List.flatMap_cons]
        exact (ih.append_left members).trans List.perm_middle

/-- The classes hold the elements of the list, each once. -/
theorem classes_perm (key : α → κ) (xs : List α)
    : ((classes key xs).flatMap Prod.snd).Perm xs := by
  have gather (found : List (κ × List α))
      : ((xs.foldl (fun found x => addToClass (key x) x found) found).flatMap Prod.snd).Perm
          (found.flatMap Prod.snd ++ xs) := by
    induction xs generalizing found with
    | nil => simp
    | cons x rest ih =>
        apply (ih _).trans
        exact ((addToClass_perm (key x) x found).append_right rest).trans List.perm_middle.symm
  simpa [classes] using gather []

/-- Elements that all have one key are a single class. -/
theorem classes_of_same {key : α → κ} {k : κ} {xs : List α} (some : xs ≠ [])
    (same : ∀ x ∈ xs, key x = k)
    : classes key xs = [(k, xs)] := by
  obtain ⟨first, rest, rfl⟩ := List.exists_cons_of_ne_nil some
  have sameRest : ∀ x ∈ rest, key x = k := fun x inside => same x (List.mem_cons_of_mem _ inside)
  have others : ((rest.map key).filter fun other => !other == k) = [] := by
    rw [List.filter_eq_nil_iff]
    intro other inside
    obtain ⟨x, among, rfl⟩ := List.mem_map.mp inside
    simp [sameRest x among]
  have members : ((first :: rest).filter fun x => key x = k) = first :: rest :=
    List.filter_eq_self.mpr fun x inside => decide_eq_true (same x inside)
  rw [classes_eq, List.map_cons, same first List.mem_cons_self, List.eraseDups_cons, others]
  simp only [List.eraseDups_nil, List.map_cons, List.map_nil, members]

end FederatedQuery
