import Mathlib.Data.List.Infix
import QspNode.Lib.PythonInt

namespace lib.python

/-- What `str.strip` removes at both ends. -/
def isspace (c : Char) : Bool :=
  asciiSpace c || (0x1c ≤ c.toNat && c.toNat ≤ 0x1f) || unicodeSpace c

/-- Python's `s.strip()`. -/
def strip (s : String) : String :=
  String.ofList ((s.toList.dropWhile isspace).rdropWhile isspace)

/-- Python's `s.rfind(c)` for a single character. -/
def rfind (s : String) (c : Char) : Int :=
  match s.toList.reverse.idxOf? c with
  | some i => s.length - 1 - i
  | none => -1

/-- Python's `s[start:stop]`; a negative bound counts from the end. -/
def slice (s : String) (start stop : Int) : String :=
  let clip (i : Int) : Nat := (if i < 0 then i + s.length else i).toNat
  String.ofList ((s.toList.drop (clip start)).take (clip stop - clip start))

/-- Python's `s[start:]`. -/
def slice_from (s : String) (start : Int) : String := slice s start s.length

/-- Python's `text in s`. -/
def contains (s text : String) : Bool := text.toList <:+: s.toList

/-- Where a text first occurs, from the given position on. -/
def findChars (text : List Char) : Nat → List Char → Option Nat
  | i, [] => if text = [] then some i else none
  | i, c :: cs => if text.isPrefixOf (c :: cs) then some i else findChars text (i + 1) cs

/-- Python's `s.find(text)`. -/
def find (s text : String) : Int := ((findChars text.toList 0 s.toList).map Int.ofNat).getD (-1)

/-- The occurrences of `old` from the left on; the number counts the characters of
    one that has been replaced already. -/
def replaceChars (old new : List Char) : Nat → List Char → List Char
  | _, [] => []
  | skip + 1, _ :: cs => replaceChars old new skip cs
  | 0, c :: cs =>
    if old.isPrefixOf (c :: cs) then new ++ replaceChars old new (old.length - 1) cs
    else c :: replaceChars old new 0 cs

/-- Python's `s.replace(old, new)`. -/
def replace (s old new : String) : String :=
  if old.isEmpty then String.ofList (new.toList ++ s.toList.flatMap (fun c => c :: new.toList))
  else String.ofList (replaceChars old.toList new.toList 0 s.toList)

/-- A text is split in one way only at the last character that is not of a kind. -/
theorem rsplit_eq {p : Char → Bool} {front back : List Char} (hback : ∀ c ∈ back, p c = true)
    (hfront : ∀ c, front.getLast? = some c → p c = false) :
    (front ++ back).rdropWhile p = front ∧ (front ++ back).rtakeWhile p = back := by
  induction back using List.reverseRecOn with
  | nil =>
    rw [List.append_nil, List.rdropWhile_eq_self_iff, List.rtakeWhile_eq_nil_iff]
    have hlast (hl : front ≠ []) : ¬ p (front.getLast hl) = true := by
      rw [hfront _ (List.getLast?_eq_some_getLast hl)]
      simp
    exact ⟨hlast, hlast⟩
  | append_singleton back c ih =>
    obtain ⟨hdrop, htake⟩ := ih (fun d hd => hback d (by simp [hd]))
    have hc := hback c (by simp)
    rw [← List.append_assoc, List.rdropWhile_concat_pos _ _ _ hc, List.rtakeWhile_concat_pos _ _ _ hc]
    exact ⟨hdrop, by rw [htake]⟩

example : replace "/tmp/x.sol:3: x.sol" "x.sol" "Token.sol" = "/tmp/Token.sol:3: Token.sol" := by decide

end lib.python
