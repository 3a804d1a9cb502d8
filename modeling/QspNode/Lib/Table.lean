import Mathlib.Data.List.Nodup
import Mathlib.Logic.Relation

namespace lib.table

/-- Applies a function to the records with a given key. -/
def update {k r : Type} [DecidableEq k] (key : r → k) (target : k) (f : r → r) (t : List r) : List r :=
  t.map (fun a => if key a = target then f a else a)

theorem keys_update {k r : Type} [DecidableEq k] {key : r → k} {target : k} {f : r → r} {t : List r}
    (hkey : ∀ a, key (f a) = key a) : (update key target f t).map key = t.map key := by
  rw [update, List.map_map]
  apply List.map_congr_left
  intro a _
  by_cases ha : key a = target
  · simp [ha, hkey]
  · simp [ha]

theorem mem_update_of_ne {k r : Type} [DecidableEq k] {key : r → k} {target : k} {f : r → r}
    {t : List r} {a : r} (hmem : a ∈ t) (hne : key a ≠ target) : a ∈ update key target f t :=
  List.mem_map.mpr ⟨a, hmem, if_neg hne⟩

theorem mem_update_of_eq {k r : Type} [DecidableEq k] {key : r → k} {target : k} {f : r → r}
    {t : List r} {a : r} (hmem : a ∈ t) (heq : key a = target) : f a ∈ update key target f t :=
  List.mem_map.mpr ⟨a, hmem, if_pos heq⟩

theorem of_mem_update {k r : Type} [DecidableEq k] {key : r → k} {target : k} {f : r → r} {t : List r}
    {b : r} (hmem : b ∈ update key target f t) :
    (b ∈ t ∧ key b ≠ target) ∨ ∃ a ∈ t, key a = target ∧ b = f a := by
  obtain ⟨a, ha, rfl⟩ := List.mem_map.mp hmem
  by_cases heq : key a = target
  · rw [if_pos heq]
    exact Or.inr ⟨a, ha, heq, rfl⟩
  · rw [if_neg heq]
    exact Or.inl ⟨ha, heq⟩

/-- What all values of a dictionary have a value that is found in it has. -/
theorem of_lookup_eq_some {k v : Type} [BEq k] [LawfulBEq k] {p : v → Prop} {entries : List (k × v)}
    (hall : ∀ entry ∈ entries, p entry.2) {target : k} {value : v}
    (hlookup : entries.lookup target = some value) : p value := by
  obtain ⟨l, r, hentries, _⟩ := List.lookup_eq_some_iff.mp hlookup
  exact hall (target, value) (by simp [hentries])

/-- Without a record of the key nothing changes. -/
theorem update_eq_self {k r : Type} [DecidableEq k] {key : r → k} {target : k} {f : r → r} {t : List r}
    (hnone : target ∉ t.map key) : update key target f t = t := by
  have hid : ∀ a ∈ t, (if key a = target then f a else a) = id a := by
    intro a ha
    have hne : key a ≠ target := by
      rintro rfl
      exact hnone (List.mem_map_of_mem ha)
    exact if_neg hne
  rw [update, List.map_congr_left hid, List.map_id]

/-- Updating one key after the other with a function that need not be repeated
    updates the records of all of them. -/
theorem foldl_update {k r : Type} [DecidableEq k] {key : r → k} {f : r → r}
    (hkey : ∀ a, key (f a) = key a) (hidem : ∀ a, f (f a) = f a) (targets : List k) (t : List r) :
    targets.foldl (fun t target => update key target f t) t =
      t.map (fun a => if key a ∈ targets then f a else a) := by
  induction targets generalizing t with
  | nil => simp
  | cons target targets ih =>
    rw [List.foldl_cons, ih, update, List.map_map]
    apply List.map_congr_left
    intro a _
    by_cases ha : key a = target
    · by_cases hmem : key a ∈ targets <;> simp [ha, hkey, hidem]
    · by_cases hmem : key a ∈ targets <;> simp [ha, hmem]

/-- The records of a kind are left as they are exactly when the function fixes
    those among them that it is applied to. -/
theorem filter_update_eq_iff {k r : Type} [DecidableEq k] {key : r → k} {target : k} {f : r → r}
    {p : r → Bool} (hp : ∀ a, p (f a) = p a) {t : List r} :
    (update key target f t).filter p = t.filter p ↔
      ∀ a ∈ t, key a = target → p a → f a = a := by
  induction t with
  | nil => simp [update]
  | cons a t ih =>
    have hkind : p (if key a = target then f a else a) = p a := by
      split
      · exact hp a
      · rfl
    rw [List.forall_mem_cons, ← ih, update, List.map_cons, List.filter_cons, List.filter_cons, hkind,
      ← update]
    by_cases hpa : p a
    · by_cases ha : key a = target
      · simp [hpa, ha]
      · simp [hpa, ha]
    · simp [hpa]

/-- Two records of a table with one key are one record. -/
theorem eq_of_key_eq {k r : Type} {key : r → k} {t : List r} (hnodup : (t.map key).Nodup) {a b : r}
    (ha : a ∈ t) (hb : b ∈ t) (hkey : key a = key b) : a = b :=
  List.inj_on_of_nodup_map hnodup ha hb hkey

/-- A list with distinct keys is split in one way only at an entry. -/
theorem split_unique {k r : Type} {key : r → k} {before after before' after' : List r} {a a' : r}
    (hnodup : ((before ++ a :: after).map key).Nodup)
    (heq : before ++ a :: after = before' ++ a' :: after') (hkey : key a = key a') : before = before' := by
  have hnodup' := hnodup
  rw [heq] at hnodup'
  simp only [List.map_append, List.map_cons, List.nodup_append', List.disjoint_cons_right] at hnodup hnodup'
  rcases List.append_eq_append_iff.mp heq with ⟨between, rfl, htail⟩ | ⟨between, rfl, htail⟩
  · cases between with
    | nil => simp
    | cons b between =>
      obtain rfl : a = b := (List.cons.inj htail).1
      exact absurd (by simp [hkey]) hnodup'.2.2.1
  · cases between with
    | nil => simp
    | cons b between =>
      obtain rfl : a' = b := (List.cons.inj htail).1
      exact absurd (by simp [hkey]) hnodup.2.2.1

/-- One change of a table: a fresh record of a new key is appended, or the
    records of one key advance. -/
inductive Changes {k r : Type} [DecidableEq k] (key : r → k) (fresh : r → Prop)
    (advances : r → r → Prop) (t : List r) : List r → Prop where
  | insert {a : r} (hfresh : fresh a) (hkey : key a ∉ t.map key) : Changes key fresh advances t (t ++ [a])
  | advance {target : k} {f : r → r} (hkey : ∀ a, key (f a) = key a)
      (hadvances : ∀ a ∈ t, key a = target → advances a (f a)) :
      Changes key fresh advances t (update key target f t)

section
variable {k r : Type} [DecidableEq k] {key : r → k} {fresh : r → Prop} {advances : r → r → Prop}
  {t u : List r}

theorem Changes.nodup (hchange : Changes key fresh advances t u) (hnodup : (t.map key).Nodup) :
    (u.map key).Nodup := by
  cases hchange with
  | insert hfresh hkey =>
    rw [List.map_append, List.nodup_append]
    exact ⟨hnodup, by simp, fun b hb c hc heq => hkey (by simp_all)⟩
  | advance hkey hadvances => rwa [keys_update hkey]

/-- Every record keeps its place in the table. -/
theorem Changes.successor (hchange : Changes key fresh advances t u) {a : r} (ha : a ∈ t) :
    ∃ b ∈ u, key b = key a ∧ Relation.ReflGen advances a b := by
  cases hchange with
  | insert hfresh hkey => exact ⟨a, List.mem_append_left _ ha, rfl, .refl⟩
  | @advance target f hkey hadvances =>
    by_cases heq : key a = target
    · exact ⟨f a, mem_update_of_eq ha heq, hkey a, .single (hadvances a ha heq)⟩
    · exact ⟨a, mem_update_of_ne ha heq, rfl, .refl⟩

/-- No key is lost. -/
theorem Changes.mem_keys (hchange : Changes key fresh advances t u) {target : k}
    (hmem : target ∈ t.map key) : target ∈ u.map key := by
  obtain ⟨a, ha, rfl⟩ := List.mem_map.mp hmem
  obtain ⟨b, hb, hkey, _⟩ := hchange.successor ha
  exact List.mem_map.mpr ⟨b, hb, hkey⟩

/-- Every record is fresh or has a predecessor. -/
theorem Changes.origin (hchange : Changes key fresh advances t u) {b : r} (hb : b ∈ u) :
    (fresh b ∧ key b ∉ t.map key) ∨ ∃ a ∈ t, key b = key a ∧ Relation.ReflGen advances a b := by
  cases hchange with
  | insert hfresh hkey =>
    rcases List.mem_append.mp hb with hb | hb
    · exact Or.inr ⟨b, hb, rfl, .refl⟩
    · obtain rfl := List.mem_singleton.mp hb
      exact Or.inl ⟨hfresh, hkey⟩
  | advance hkey hadvances =>
    rcases of_mem_update hb with ⟨hb, _⟩ | ⟨a, ha, heq, rfl⟩
    · exact Or.inr ⟨b, hb, rfl, .refl⟩
    · exact Or.inr ⟨a, ha, hkey a, .single (hadvances a ha heq)⟩

/-- What fresh records have and advances keep holds of all records. -/
theorem Changes.forall_mem (hchange : Changes key fresh advances t u) {p : r → Prop}
    (hfresh : ∀ a, fresh a → p a) (hadvances : ∀ a b, advances a b → p a → p b)
    (hall : ∀ a ∈ t, p a) : ∀ b ∈ u, p b := by
  intro b hb
  rcases hchange.origin hb with ⟨hb, _⟩ | ⟨a, ha, _, hab⟩
  · exact hfresh b hb
  · cases hab with
    | refl => exact hall b ha
    | single hab => exact hadvances a b hab (hall a ha)

/-- A record and what has become of it after any number of changes. -/
theorem successor_of_reflTransGen (hchanges : Relation.ReflTransGen (Changes key fresh advances) t u)
    {a : r} (ha : a ∈ t) : ∃ b ∈ u, key b = key a ∧ Relation.ReflTransGen advances a b := by
  induction hchanges with
  | refl => exact ⟨a, ha, rfl, .refl⟩
  | tail _ hchange ih =>
    obtain ⟨b, hb, hkey, hab⟩ := ih
    obtain ⟨c, hc, hkey', hbc⟩ := hchange.successor hb
    refine ⟨c, hc, hkey'.trans hkey, hab.trans ?_⟩
    cases hbc with
    | refl => exact .refl
    | single hbc => exact .single hbc

end

end lib.table
