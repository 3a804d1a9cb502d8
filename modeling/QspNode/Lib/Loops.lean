import Mathlib.Data.List.Basic

namespace lib.loops

/-- The loop `for a in l: acc += f(a)` in a monad with failure. -/
def collect {m : Type → Type} [Monad m] {α β : Type} (f : α → m (List β)) : List α → m (List β)
  | [] => pure []
  | a :: l => do
    let bs ← f a
    let rest ← collect f l
    pure (bs ++ rest)

theorem collect_option_cons_eq_some_iff {α β : Type} {f : α → Option (List β)} {a : α} {l : List α}
    {bs : List β} :
    collect f (a :: l) = some bs ↔
      ∃ head tail, f a = some head ∧ collect f l = some tail ∧ bs = head ++ tail := by
  simp only [collect, Option.bind_eq_bind, Option.bind_eq_some_iff, Option.pure_def,
    Option.some.injEq]
  constructor
  · rintro ⟨head, hhead, tail, htail, rfl⟩
    exact ⟨head, tail, hhead, htail, rfl⟩
  · rintro ⟨head, tail, hhead, htail, rfl⟩
    exact ⟨head, hhead, tail, htail, rfl⟩

theorem collect_except_cons_eq_ok_iff {ε α β : Type} {f : α → Except ε (List β)} {a : α}
    {l : List α} {bs : List β} :
    collect f (a :: l) = .ok bs ↔
      ∃ head tail, f a = .ok head ∧ collect f l = .ok tail ∧ bs = head ++ tail := by
  rw [collect]
  cases hhead : f a with
  | error e => simp [bind, Except.bind]
  | ok head =>
    cases htail : collect f l with
    | error e => simp [bind, Except.bind]
    | ok tail => simp [bind, Except.bind, pure, Except.pure, eq_comm]

/-- A loop whose every round yields the encodings of the values that another
    loop yields, provided these are encodable, does so as a whole. -/
theorem collect_encode {ε α β γ : Type} {f : α → Except ε (List β)} {g : α → Option (List γ)}
    {encodable : γ → Prop} {encode : γ → β}
    (hround : ∀ a bs, f a = .ok bs ↔
      ∃ cs, g a = some cs ∧ (∀ c ∈ cs, encodable c) ∧ bs = cs.map encode)
    (l : List α) (bs : List β) :
    collect f l = .ok bs ↔
      ∃ cs, collect g l = some cs ∧ (∀ c ∈ cs, encodable c) ∧ bs = cs.map encode := by
  induction l generalizing bs with
  | nil => simp [collect, pure, Except.pure, eq_comm]
  | cons a l ih =>
    rw [collect_except_cons_eq_ok_iff]
    simp only [hround, ih, collect_option_cons_eq_some_iff]
    constructor
    · rintro ⟨_, _, ⟨head, hhead, hencodable, rfl⟩, ⟨tail, htail, hencodable', rfl⟩, rfl⟩
      refine ⟨head ++ tail, ⟨head, tail, hhead, htail, rfl⟩, ?_, (List.map_append ..).symm⟩
      intro c hc
      exact (List.mem_append.mp hc).elim (hencodable c) (hencodable' c)
    · rintro ⟨_, ⟨head, tail, hhead, htail, rfl⟩, hencodable, rfl⟩
      exact ⟨_, _, ⟨head, hhead, fun c hc => hencodable c (by simp [hc]), rfl⟩,
        ⟨tail, htail, fun c hc => hencodable c (by simp [hc]), rfl⟩, List.map_append ..⟩

theorem collect_map {m : Type → Type} [Monad m] {α β γ : Type} (f : β → m (List γ)) (g : α → β)
    (l : List α) : collect f (l.map g) = collect (fun a => f (g a)) l := by
  induction l with
  | nil => rfl
  | cons a l ih => rw [List.map_cons, collect, collect, ih]

/-- A loop whose rounds cannot fail concatenates their lists. -/
theorem collect_pure {m : Type → Type} [Monad m] [LawfulMonad m] {α β : Type} {f : α → m (List β)}
    {g : α → List β} {l : List α} (hround : ∀ a ∈ l, f a = pure (g a)) :
    collect f l = pure (l.flatMap g) := by
  induction l with
  | nil => rfl
  | cons a l ih =>
    rw [collect, hround a (by simp), ih (fun b hb => hround b (by simp [hb])), pure_bind, pure_bind,
      List.flatMap_cons]

/-- A loop collects values of a kind exactly when each of its rounds does. -/
theorem collect_option_forall_iff {α β : Type} {p : β → Prop} {f : α → Option (List β)} {l : List α} :
    (∃ bs, collect f l = some bs ∧ ∀ b ∈ bs, p b) ↔
      ∀ a ∈ l, ∃ bs, f a = some bs ∧ ∀ b ∈ bs, p b := by
  induction l with
  | nil => simp [collect]
  | cons a l ih =>
    rw [List.forall_mem_cons, ← ih]
    simp only [collect_option_cons_eq_some_iff]
    constructor
    · rintro ⟨_, ⟨head, tail, hhead, htail, rfl⟩, hall⟩
      rw [List.forall_mem_append] at hall
      exact ⟨⟨head, hhead, hall.1⟩, tail, htail, hall.2⟩
    · rintro ⟨⟨head, hhead, hp⟩, tail, htail, hp'⟩
      exact ⟨_, ⟨head, tail, hhead, htail, rfl⟩, List.forall_mem_append.mpr ⟨hp, hp'⟩⟩

/-- Two loops whose rounds yield a list and its image do so as a whole, when
    both succeed. -/
theorem collect_image {ε α β γ : Type} {f : α → Except ε (List β)} {g : α → Option (List γ)}
    {image : γ → β} (hround : ∀ a bs cs, f a = .ok bs → g a = some cs → bs = cs.map image)
    {l : List α} {bs : List β} {cs : List γ} (hbs : collect f l = .ok bs)
    (hcs : collect g l = some cs) : bs = cs.map image := by
  induction l generalizing bs cs with
  | nil =>
    obtain rfl : [] = bs := Except.ok.inj hbs
    obtain rfl : [] = cs := Option.some.inj hcs
    rfl
  | cons a l ih =>
    obtain ⟨head, tail, hhead, htail, rfl⟩ := collect_except_cons_eq_ok_iff.mp hbs
    obtain ⟨head', tail', hhead', htail', rfl⟩ := collect_option_cons_eq_some_iff.mp hcs
    rw [hround a head head' hhead hhead', ih htail htail', List.map_append]

/-- A round from `i` on satisfies `q`, and the rounds before it satisfy `p`. -/
def Reaches (p q : Nat → Prop) (i : Nat) : Prop :=
  ∃ j, i ≤ j ∧ (∀ k, i ≤ k → k < j → p k) ∧ q j

theorem forall_rounds_iff {p : Nat → Prop} {i j : Nat} (hlt : i < j) :
    (∀ k, i ≤ k → k < j → p k) ↔ p i ∧ ∀ k, i + 1 ≤ k → k < j → p k := by
  constructor
  · intro hall
    exact ⟨hall i (Nat.le_refl i) hlt, fun k hk => hall k (Nat.le_of_succ_le hk)⟩
  · rintro ⟨hfirst, hrest⟩ k hk hkj
    rcases Nat.eq_or_lt_of_le hk with rfl | hk
    · exact hfirst
    · exact hrest k hk hkj

theorem reaches_iff {p q : Nat → Prop} {i : Nat} :
    Reaches p q i ↔ q i ∨ p i ∧ Reaches p q (i + 1) := by
  constructor
  · rintro ⟨j, hle, hall, hj⟩
    rcases Nat.eq_or_lt_of_le hle with rfl | hlt
    · exact Or.inl hj
    · obtain ⟨hfirst, hrest⟩ := (forall_rounds_iff hlt).mp hall
      exact Or.inr ⟨hfirst, j, hlt, hrest, hj⟩
  · rintro (hi | ⟨hfirst, j, hle, hrest, hj⟩)
    · exact ⟨i, Nat.le_refl i, fun k hk hlt => absurd hlt (Nat.not_lt.mpr hk), hi⟩
    · exact ⟨j, Nat.le_of_succ_le hle, (forall_rounds_iff hle).mpr ⟨hfirst, hrest⟩, hj⟩

/-- A loop whose rounds extend the list of what was done so far. -/
theorem foldl_extends {σ α γ : Type} {motive : List α → σ → Prop} {f : σ → γ → σ}
    {entries : γ → List α} (hround : ∀ as s c, motive as s → motive (as ++ entries c) (f s c))
    {as : List α} {s : σ} (hmotive : motive as s) (cs : List γ) :
    motive (as ++ cs.flatMap entries) (cs.foldl f s) := by
  induction cs generalizing as s with
  | nil => simpa using hmotive
  | cons c cs ih =>
    rw [List.flatMap_cons, ← List.append_assoc, List.foldl_cons]
    exact ih (hround as s c hmotive)

/-- A list that is kept only when something was collected. -/
theorem getD_nonempty {α : Type} (l : List α) :
    (if l.length > 0 then some l else none).getD [] = l := by
  cases l with
  | nil => rfl
  | cons a l => simp

/-- What was emitted are the entries, each with the number it was given in
    turn, in whatever order. -/
structure Numbered {α β : Type} (emit : α → Nat → β) (as : List α) (counter : Nat) (bs : List β) :
    Prop where
  counted : counter = as.length
  emitted : bs.Perm (as.zipIdx.map (fun p => emit p.1 p.2))

section
variable {α β : Type} {emit : α → Nat → β} {as : List α} {counter : Nat} {bs : List β}

theorem numbered_nil : Numbered emit [] 0 [] := ⟨rfl, .nil⟩

theorem Numbered.extend (hnumbered : Numbered emit as counter bs) {as' : List α} {bs' : List β}
    (hemitted : bs'.Perm ((as'.zipIdx counter).map (fun p => emit p.1 p.2))) :
    Numbered emit (as ++ as') (counter + as'.length) (bs ++ bs') where
  counted := by rw [hnumbered.counted, List.length_append]
  emitted := by
    rw [List.zipIdx_append, List.map_append, Nat.zero_add, ← hnumbered.counted]
    exact hnumbered.emitted.append hemitted

/-- The numbers are exactly those below the number of entries, each once. -/
theorem Numbered.numbers (hnumbered : Numbered emit as counter bs) {number : β → Nat}
    (hnumber : ∀ a n, number (emit a n) = n) : (bs.map number).Perm (List.range as.length) := by
  have hperm := hnumbered.emitted.map number
  have hsnd : (number ∘ fun p : α × Nat => emit p.1 p.2) = Prod.snd :=
    funext (fun p => hnumber p.1 p.2)
  rwa [List.map_map, hsnd, List.zipIdx_map_snd, ← List.range_eq_range'] at hperm

end

theorem collect_except_eq_ok_iff {ε α β : Type} {f : α → Except ε (List β)} {p : α → Prop}
    {g : α → List β} (hround : ∀ a bs, f a = .ok bs ↔ p a ∧ bs = g a) (l : List α) (bs : List β) :
    collect f l = .ok bs ↔ (∀ a ∈ l, p a) ∧ bs = l.flatMap g := by
  induction l generalizing bs with
  | nil => simp [collect, pure, Except.pure, eq_comm]
  | cons a l ih =>
    rw [collect_except_cons_eq_ok_iff, List.forall_mem_cons, List.flatMap_cons]
    simp only [hround, ih]
    constructor
    · rintro ⟨_, _, ⟨ha, rfl⟩, ⟨hl, rfl⟩, rfl⟩
      exact ⟨⟨ha, hl⟩, rfl⟩
    · rintro ⟨⟨ha, hl⟩, rfl⟩
      exact ⟨_, _, ⟨ha, rfl⟩, ⟨hl, rfl⟩, rfl⟩

/-- The loop `for a in l: (bs, s) = f(s, a); acc += bs`. -/
def collectFrom {ε σ α β : Type} (f : σ → α → Except ε (List β × σ)) :
    σ → List α → Except ε (List β × σ)
  | s, [] => .ok ([], s)
  | s, a :: l => do
    let (bs, s) ← f s a
    let (rest, s) ← collectFrom f s l
    return (bs ++ rest, s)

/-- What the rounds of such a loop emit. -/
def emitted {σ α β : Type} (g : σ → α → List β) (next : σ → α → σ) : σ → List α → List β
  | _, [] => []
  | s, a :: l => g s a ++ emitted g next (next s a) l

theorem collectFrom_eq_ok_iff {ε σ α β : Type} {f : σ → α → Except ε (List β × σ)} {p : α → Prop}
    {g : σ → α → List β} {next : σ → α → σ}
    (hround : ∀ s a r, f s a = .ok r ↔ p a ∧ r = (g s a, next s a)) (s : σ) (l : List α)
    (r : List β × σ) :
    collectFrom f s l = .ok r ↔ (∀ a ∈ l, p a) ∧ r = (emitted g next s l, l.foldl next s) := by
  induction l generalizing s r with
  | nil => simp [collectFrom, emitted, eq_comm]
  | cons a l ih =>
    rw [List.forall_mem_cons, collectFrom, emitted, List.foldl_cons]
    cases hhead : f s a with
    | error e =>
      have hnot : ¬ p a := fun hp => by
        have hok := (hround s a _).mpr ⟨hp, rfl⟩
        rw [hhead] at hok
        cases hok
      simp [bind, Except.bind, hnot]
    | ok head =>
      obtain ⟨hp, rfl⟩ := (hround s a head).mp hhead
      cases htail : collectFrom f (next s a) l with
      | error e =>
        have hnot : ¬ ∀ a ∈ l, p a := fun hl => by
          have hok := (ih (next s a) _).mpr ⟨hl, rfl⟩
          rw [htail] at hok
          cases hok
        simp [bind, Except.bind, htail, hnot]
      | ok tail =>
        obtain ⟨hl, rfl⟩ := (ih (next s a) tail).mp htail
        simp only [bind, Except.bind, htail, pure, Except.pure, Except.ok.injEq]
        exact ⟨fun h => ⟨⟨hp, hl⟩, h.symm⟩, fun h => h.2.symm⟩

theorem forall_mem_zipIdx_fst {α : Type} {p : α → Prop} {l : List α} {k : Nat} :
    (∀ x ∈ l.zipIdx k, p x.1) ↔ ∀ a ∈ l, p a := by
  rw [← List.forall_mem_map, List.zipIdx_map_fst]

theorem emitted_forall_iff {σ α β : Type} {g : σ → α → List β} {next : σ → α → σ} {p : β → Prop}
    {q : α → Prop} {l : List α} (hround : ∀ a ∈ l, ∀ s, (∀ b ∈ g s a, p b) ↔ q a) (s : σ) :
    (∀ b ∈ emitted g next s l, p b) ↔ ∀ a ∈ l, q a := by
  induction l generalizing s with
  | nil => simp [emitted]
  | cons a l ih =>
    rw [emitted, List.forall_mem_append, hround a (by simp), List.forall_mem_cons,
      ih (fun b hb => hround b (by simp [hb]))]

theorem map_emitted {σ α β γ : Type} {g : σ → α → List β} {next : σ → α → σ} {read : β → γ} {h : α → γ}
    (hround : ∀ s a, (g s a).map read = [h a]) (s : σ) (l : List α) :
    (emitted g next s l).map read = l.map h := by
  induction l generalizing s with
  | nil => rfl
  | cons a l ih => rw [emitted, List.map_append, hround, ih, List.map_cons, List.singleton_append]

theorem foldl_count {α γ : Type} {next : Nat → α → Nat} {units : α → List γ}
    (hnext : ∀ n a, next n a = n + (units a).length) (n : Nat) (l : List α) :
    l.foldl next n = n + (l.flatMap units).length := by
  induction l generalizing n with
  | nil => rfl
  | cons a l ih => rw [List.foldl_cons, ih, hnext, List.flatMap_cons, List.length_append, Nat.add_assoc]

end lib.loops
