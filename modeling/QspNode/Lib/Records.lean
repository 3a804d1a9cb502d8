import Mathlib.Data.List.Basic

namespace lib.records

/-- Repeats a reader until the input is used up. The fuel bounds the number of
    records; `readToEnd` supplies enough of it. -/
def readAll {α β ε : Type} (read : List β → Except ε (α × List β)) :
    Nat → List β → Except ε (List α)
  | _, [] => .ok []
  | 0, _ :: _ => .ok []
  | fuel + 1, b :: bs =>
    match read (b :: bs) with
    | .error e => .error e
    | .ok (a, rest) =>
      match readAll read fuel rest with
      | .error e => .error e
      | .ok as => .ok (a :: as)

def readToEnd {α β ε : Type} (read : List β → Except ε (α × List β)) (bs : List β) :
    Except ε (List α) :=
  readAll read bs.length bs

/-- A reader that uses up part of every nonempty input it accepts. -/
def Shortens {α β ε : Type} (read : List β → Except ε (α × List β)) : Prop :=
  ∀ bs a rest, bs ≠ [] → read bs = .ok (a, rest) → rest.length < bs.length

theorem readAll_fuel {α β ε : Type} {read : List β → Except ε (α × List β)}
    (hshort : Shortens read) {fuel : Nat} {bs : List β} (hfuel : bs.length ≤ fuel) :
    readAll read fuel bs = readToEnd read bs := by
  induction fuel using Nat.strongRecOn generalizing bs with
  | _ fuel ih =>
    cases bs with
    | nil => cases fuel <;> rfl
    | cons b bs =>
      cases fuel with
      | zero => simp at hfuel
      | succ fuel =>
        rw [readToEnd, List.length_cons, readAll, readAll]
        cases hread : read (b :: bs) with
        | error e => rfl
        | ok result =>
          obtain ⟨a, rest⟩ := result
          have hrest := hshort _ _ _ (by simp) hread
          simp only [List.length_cons] at hrest hfuel
          have hfirst : readAll read fuel rest = readToEnd read rest :=
            ih fuel (by omega) (by omega)
          have hsecond : readAll read bs.length rest = readToEnd read rest :=
            ih bs.length (by omega) (by omega)
          simp only [hfirst, hsecond]

@[simp]
theorem readToEnd_nil {α β ε : Type} (read : List β → Except ε (α × List β)) :
    readToEnd read [] = .ok [] := rfl

/-- One round of the loop, without fuel. -/
theorem readToEnd_eq {α β ε : Type} {read : List β → Except ε (α × List β)}
    (hshort : Shortens read) {bs : List β} (hne : bs ≠ []) :
    readToEnd read bs =
      match read bs with
      | .error e => .error e
      | .ok (a, rest) =>
        match readToEnd read rest with
        | .error e => .error e
        | .ok as => .ok (a :: as) := by
  cases bs with
  | nil => exact absurd rfl hne
  | cons b bs =>
    rw [readToEnd, List.length_cons, readAll]
    cases hread : read (b :: bs) with
    | error e => rfl
    | ok result =>
      obtain ⟨a, rest⟩ := result
      have hrest := hshort _ _ _ (by simp) hread
      simp only [List.length_cons] at hrest
      have htail : readAll read bs.length rest = readToEnd read rest := readAll_fuel hshort (by omega)
      simp only [htail]

/-- The inputs that a reader cuts into records without remainder. -/
inductive Reads {α β ε : Type} (read : List β → Except ε (α × List β)) : List β → List α → Prop
  | nil : Reads read [] []
  | cons {bs rest : List β} {a : α} {as : List α} (hne : bs ≠ [])
      (hread : read bs = .ok (a, rest)) (htail : Reads read rest as) : Reads read bs (a :: as)

theorem readToEnd_eq_ok_iff {α β ε : Type} {read : List β → Except ε (α × List β)}
    (hshort : Shortens read) {bs : List β} {as : List α} :
    readToEnd read bs = .ok as ↔ Reads read bs as := by
  constructor
  · intro hok
    generalize hlength : bs.length = n
    induction n using Nat.strongRecOn generalizing bs as with
    | _ n ih =>
      by_cases hne : bs = []
      · subst hne
        obtain rfl : [] = as := by simpa using hok
        exact .nil
      · rw [readToEnd_eq hshort hne] at hok
        cases hread : read bs with
        | error e => simp [hread] at hok
        | ok result =>
          obtain ⟨a, rest⟩ := result
          cases htail : readToEnd read rest with
          | error e => simp [hread, htail] at hok
          | ok tail =>
            obtain rfl : a :: tail = as := by simpa [hread, htail] using hok
            have hrest := hshort _ _ _ hne hread
            exact .cons hne hread (ih _ (hlength ▸ hrest) htail rfl)
  · intro hreads
    induction hreads with
    | nil => rfl
    | cons hne hread _ ih => rw [readToEnd_eq hshort hne, hread]; simp only [ih]

/-- A self-delimiting encoding: the reader takes an encoded record back off the
    front of any input. Concatenated records then read back as the list. -/
theorem readToEnd_flatMap {α β ε : Type} {read : List β → Except ε (α × List β)}
    (hshort : Shortens read) {encode : α → List β} {as : List α}
    (hencode : ∀ a ∈ as, encode a ≠ [] ∧ ∀ rest, read (encode a ++ rest) = .ok (a, rest)) :
    readToEnd read (as.flatMap encode) = .ok as := by
  rw [readToEnd_eq_ok_iff hshort]
  induction as with
  | nil => exact .nil
  | cons a as ih =>
    obtain ⟨hne, hread⟩ := hencode a (by simp)
    rw [List.flatMap_cons]
    exact .cons (by simp [hne]) (hread _) (ih (fun b hb => hencode b (by simp [hb])))

end lib.records
