import Mathlib.Data.List.Induction
import Mathlib.Data.List.Nodup
import Mathlib.Logic.Function.Basic

namespace lib.ordered

theorem eraseDups_concat {α : Type} [BEq α] [LawfulBEq α] (l : List α) (a : α) :
    (l ++ [a]).eraseDups = if a ∈ l then l.eraseDups else l.eraseDups ++ [a] := by
  rw [List.eraseDups_append]
  by_cases hmem : a ∈ l
  · simp [List.removeAll, hmem]
  · simp [List.removeAll, hmem, List.eraseDups_cons]

@[simp]
theorem mem_eraseDups {α : Type} [BEq α] [LawfulBEq α] {l : List α} {a : α} :
    a ∈ l.eraseDups ↔ a ∈ l := by
  induction l using List.reverseRecOn with
  | nil => simp
  | append_singleton l b ih =>
    rw [eraseDups_concat]
    by_cases hmem : b ∈ l
    · rw [if_pos hmem, ih, List.mem_append, List.mem_singleton]
      exact ⟨Or.inl, fun h => h.elim id (fun heq => heq ▸ hmem)⟩
    · simp [hmem, ih]

/-- Keeping first occurrences commutes with a map that is injective on the
    list, so duplicates may be removed before or after encoding. -/
theorem eraseDups_map {α β : Type} [BEq α] [LawfulBEq α] [BEq β] [LawfulBEq β] (f : α → β)
    {l : List α} (hinj : ∀ a ∈ l, ∀ b ∈ l, f a = f b → a = b) :
    (l.map f).eraseDups = l.eraseDups.map f := by
  induction l using List.reverseRecOn with
  | nil => rfl
  | append_singleton l a ih =>
    have hprefix := ih (fun x hx y hy => hinj x (by simp [hx]) y (by simp [hy]))
    have hmem : f a ∈ l.map f ↔ a ∈ l := by
      rw [List.mem_map]
      constructor
      · rintro ⟨b, hb, heq⟩
        have hba := hinj b (by simp [hb]) a (by simp) heq
        exact hba ▸ hb
      · exact fun ha => ⟨a, ha, rfl⟩
    rw [List.map_append, List.map_singleton, eraseDups_concat, eraseDups_concat, hprefix]
    by_cases ha : a ∈ l
    · rw [if_pos ha, if_pos (hmem.mpr ha)]
    · rw [if_neg ha, if_neg (fun h => ha (hmem.mp h)), List.map_append, List.map_singleton]

theorem nodup_eraseDups {α : Type} [BEq α] [LawfulBEq α] (l : List α) : l.eraseDups.Nodup := by
  induction l using List.reverseRecOn with
  | nil => exact List.nodup_nil
  | append_singleton l a ih =>
    rw [eraseDups_concat]
    by_cases hmem : a ∈ l
    · rwa [if_pos hmem]
    · rw [if_neg hmem]
      apply ih.append (List.nodup_singleton a)
      rw [List.disjoint_singleton, mem_eraseDups]
      exact hmem

theorem eraseDups_of_nodup {α : Type} [BEq α] [LawfulBEq α] {l : List α} (hnodup : l.Nodup) :
    l.eraseDups = l := by
  induction l using List.reverseRecOn with
  | nil => rfl
  | append_singleton l a ih =>
    obtain ⟨hl, _, hdisjoint⟩ := List.nodup_append'.mp hnodup
    rw [List.disjoint_singleton] at hdisjoint
    rw [eraseDups_concat, if_neg hdisjoint, ih hl]

theorem eraseDups_append_disjoint {α : Type} [BEq α] [LawfulBEq α] {l l' : List α}
    (hdisjoint : ∀ a ∈ l', a ∉ l) : (l ++ l').eraseDups = l.eraseDups ++ l'.eraseDups := by
  rw [List.eraseDups_append]
  have hfilter : l'.removeAll l = l' := by
    rw [List.removeAll, List.filter_eq_self]
    intro a ha
    simpa using hdisjoint a ha
  rw [hfilter]

/-- A dictionary of lists together with its keys in order of first insertion. -/
structure Groups (κ ν : Type) where
  order : List κ
  items : κ → Option (List ν)

def Groups.empty {κ ν : Type} : Groups κ ν := { order := [], items := fun _ => none }

/-- Appends one value to the list of a key; the value may depend on its
    position in that list. -/
def Groups.insert {κ ν : Type} [DecidableEq κ] (g : Groups κ ν) (k : κ) (mk : Nat → ν) :
    Groups κ ν :=
  let values := (g.items k).getD []
  { order := if values.isEmpty then g.order ++ [k] else g.order
    items := Function.update g.items k (some (values ++ [mk values.length])) }

theorem Groups.insert_order {κ ν : Type} [DecidableEq κ] (g : Groups κ ν) (k : κ) (mk : Nat → ν) :
    (g.insert k mk).order = if (g.items k).getD [] = [] then g.order ++ [k] else g.order := by
  simp [Groups.insert]

theorem Groups.insert_items {κ ν : Type} [DecidableEq κ] (g : Groups κ ν) (k other : κ)
    (mk : Nat → ν) :
    ((g.insert k mk).items other).getD [] =
      if k = other then (g.items k).getD [] ++ [mk ((g.items k).getD []).length]
      else (g.items other).getD [] := by
  by_cases hk : k = other
  · subst hk
    simp [Groups.insert]
  · simp [Groups.insert, Function.update_of_ne (Ne.symm hk), hk]

/-- The values that a key has collected after a whole list was inserted. -/
def valuesOf {α κ ν : Type} [DecidableEq κ] (key : α → κ) (mk : α → Nat → ν) (l : List α) (k : κ) :
    List ν :=
  (l.filter (fun a => key a = k)).mapIdx (fun i a => mk a i)

theorem valuesOf_concat {α κ ν : Type} [DecidableEq κ] (key : α → κ) (mk : α → Nat → ν)
    (l : List α) (a : α) (k : κ) :
    valuesOf key mk (l ++ [a]) k =
      if key a = k then valuesOf key mk l k ++ [mk a (valuesOf key mk l k).length]
      else valuesOf key mk l k := by
  by_cases hk : key a = k
  · simp [valuesOf, List.filter_append, hk, List.mapIdx_append]
  · simp [valuesOf, List.filter_append, hk]

theorem valuesOf_eq_nil_iff {α κ ν : Type} [DecidableEq κ] (key : α → κ) (mk : α → Nat → ν)
    (l : List α) (k : κ) : valuesOf key mk l k = [] ↔ k ∉ l.map key := by
  simp [valuesOf, List.filter_eq_nil_iff]

/-- Groups every element of a list under its key, from the left. -/
def groupBy {α κ ν : Type} [DecidableEq κ] (key : α → κ) (mk : α → Nat → ν) (l : List α) :
    Groups κ ν :=
  l.foldl (fun g a => g.insert (key a) (mk a)) Groups.empty

theorem groupBy_concat {α κ ν : Type} [DecidableEq κ] (key : α → κ) (mk : α → Nat → ν)
    (l : List α) (a : α) :
    groupBy key mk (l ++ [a]) = (groupBy key mk l).insert (key a) (mk a) := by
  simp [groupBy, List.foldl_append]

/-- Every key holds its values in list order. -/
theorem groupBy_items {α κ ν : Type} [DecidableEq κ] (key : α → κ) (mk : α → Nat → ν)
    (l : List α) (k : κ) : ((groupBy key mk l).items k).getD [] = valuesOf key mk l k := by
  induction l using List.reverseRecOn with
  | nil => rfl
  | append_singleton l a ih =>
    rw [groupBy_concat, Groups.insert_items, valuesOf_concat]
    by_cases hk : key a = k
    · subst hk
      rw [if_pos rfl, if_pos rfl, ih]
    · rw [if_neg hk, if_neg hk, ih]

/-- The keys stand in order of first appearance. -/
theorem groupBy_order {α κ ν : Type} [DecidableEq κ] (key : α → κ) (mk : α → Nat → ν)
    (l : List α) : (groupBy key mk l).order = (l.map key).eraseDups := by
  induction l using List.reverseRecOn with
  | nil => rfl
  | append_singleton l a ih =>
    rw [groupBy_concat, Groups.insert_order, groupBy_items, ih, List.map_append,
      List.map_singleton, eraseDups_concat]
    have hnil := valuesOf_eq_nil_iff key mk l (key a)
    by_cases hmem : key a ∈ l.map key
    · rw [if_pos hmem, if_neg (fun h => hnil.mp h hmem)]
    · rw [if_neg hmem, if_pos (hnil.mpr hmem)]

/-- The elements of a list, sorted by key: the keys in order of first appearance
    and the elements of a key in list order. -/
def regroup {α κ : Type} [DecidableEq κ] (key : α → κ) (l : List α) : List α :=
  (l.map key).eraseDups.flatMap (fun k => l.filter (fun a => key a = k))

@[simp]
theorem mem_regroup {α κ : Type} [DecidableEq κ] {key : α → κ} {l : List α} {a : α} :
    a ∈ regroup key l ↔ a ∈ l := by
  simp only [regroup, List.mem_flatMap, mem_eraseDups, List.mem_filter, decide_eq_true_eq]
  constructor
  · rintro ⟨_, _, ha, _⟩
    exact ha
  · exact fun ha => ⟨key a, List.mem_map_of_mem ha, ha, rfl⟩

theorem eraseDups_replicate {α : Type} [BEq α] [LawfulBEq α] (n : Nat) (a : α) :
    (List.replicate (n + 1) a).eraseDups = [a] := by
  induction n with
  | zero => rfl
  | succ n ih => rw [List.replicate_succ', eraseDups_concat, if_pos (by simp), ih]

/-- A block of one key in front of other keys stays where it is. -/
theorem regroup_append {α κ : Type} [DecidableEq κ] {key : α → κ} {k : κ} {l l' : List α}
    (hblock : ∀ a ∈ l, key a = k) (hrest : ∀ a ∈ l', key a ≠ k) :
    regroup key (l ++ l') = l ++ regroup key l' := by
  by_cases hnil : l = []
  · rw [hnil, List.nil_append, List.nil_append]
  · have hkeys : (l.map key).eraseDups = [k] := by
      have hreplicate : l.map key = List.replicate (l.length - 1 + 1) k := by
        rw [List.eq_replicate_iff, List.length_map]
        have hpos := List.length_pos_iff.mpr hnil
        exact ⟨by omega, by simpa using hblock⟩
      rw [hreplicate, eraseDups_replicate]
    have hdisjoint : ∀ k' ∈ l'.map key, k' ∉ l.map key := by
      intro k' hk' hmem
      obtain ⟨a, ha, rfl⟩ := List.mem_map.mp hk'
      obtain ⟨b, hb, hkey⟩ := List.mem_map.mp hmem
      exact hrest a ha (hkey ▸ hblock b hb)
    have hfirst : (l ++ l').filter (fun a => key a = k) = l := by
      rw [List.filter_append, List.filter_eq_self.mpr (by simpa using hblock),
        List.filter_eq_nil_iff.mpr (by simpa using hrest), List.append_nil]
    rw [regroup, List.map_append, eraseDups_append_disjoint hdisjoint, hkeys, List.flatMap_append,
      List.flatMap_singleton, hfirst, regroup]
    congr 1
    apply List.flatMap_congr
    intro k' hk'
    have hother : l.filter (fun a => key a = k') = [] := by
      rw [List.filter_eq_nil_iff]
      intro a ha
      rw [decide_eq_true_eq]
      rintro rfl
      exact hdisjoint _ (mem_eraseDups.mp hk') (List.mem_map_of_mem ha)
    rw [List.filter_append, hother, List.nil_append]

/-- Blocks of distinct keys are in order already. -/
theorem regroup_flatMap {α κ : Type} [DecidableEq κ] {key : α → κ} {ks : List κ}
    {block : κ → List α} (hnodup : ks.Nodup) (hkey : ∀ k, ∀ a ∈ block k, key a = k) :
    regroup key (ks.flatMap block) = ks.flatMap block := by
  induction ks with
  | nil => rfl
  | cons k ks ih =>
    obtain ⟨hnew, hnodup⟩ := List.nodup_cons.mp hnodup
    rw [List.flatMap_cons, regroup_append (hkey k), ih hnodup]
    intro a ha heq
    obtain ⟨k', hk', ha⟩ := List.mem_flatMap.mp ha
    have hk : k = k' := heq.symm.trans (hkey k' a ha)
    exact hnew (hk ▸ hk')

theorem eraseDups_flatMap {α κ : Type} [BEq α] [LawfulBEq α] {key : α → κ} {ks : List κ}
    {block : κ → List α} (hnodup : ks.Nodup) (hkey : ∀ k, ∀ a ∈ block k, key a = k) :
    (ks.flatMap block).eraseDups = ks.flatMap (fun k => (block k).eraseDups) := by
  induction ks with
  | nil => rfl
  | cons k ks ih =>
    obtain ⟨hnew, hnodup⟩ := List.nodup_cons.mp hnodup
    rw [List.flatMap_cons, List.flatMap_cons, eraseDups_append_disjoint, ih hnodup]
    intro a ha hmem
    obtain ⟨k', hk', ha⟩ := List.mem_flatMap.mp ha
    have hk : k = k' := (hkey k a hmem).symm.trans (hkey k' a ha)
    exact hnew (hk ▸ hk')

/-- Sorting by key and removing duplicates is a normal form: doing both again
    changes nothing. -/
theorem eraseDups_regroup_idem {α κ : Type} [DecidableEq α] [DecidableEq κ] (key : α → κ)
    (l : List α) :
    (regroup key (regroup key l).eraseDups).eraseDups = (regroup key l).eraseDups := by
  have hnodup := nodup_eraseDups (l.map key)
  have hkey : ∀ k, ∀ a ∈ l.filter (fun a => key a = k), key a = k := by
    intro k a ha
    simpa using (List.mem_filter.mp ha).2
  have hblocks : (regroup key l).eraseDups = (l.map key).eraseDups.flatMap
      (fun k => (l.filter (fun a => key a = k)).eraseDups) := eraseDups_flatMap hnodup hkey
  have hregroup : regroup key (regroup key l).eraseDups = (regroup key l).eraseDups := by
    rw [hblocks]
    exact regroup_flatMap hnodup (fun k a ha => hkey k a (mem_eraseDups.mp ha))
  rw [hregroup, eraseDups_of_nodup (nodup_eraseDups _)]

end lib.ordered
