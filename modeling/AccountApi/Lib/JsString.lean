import Mathlib.Data.Int.Notation
import Mathlib.Data.List.DropRight
import Mathlib.Data.List.Defs
import Mathlib.Data.Nat.Notation

/-!
# Strings as JavaScript sees them

`length` counts UTF-16 code units; white space is what `trim()` and `\s` take it
to be: the ECMAScript white-space and line-terminator characters.

`trim_trim`: a trimmed string has nothing left to trim. `split_append`: a string is split on either side
of a separator on its own.
-/

namespace JsString

/-- ECMAScript `WhiteSpace` and `LineTerminator`. -/
def isWhiteSpace (c : Char) : Bool :=
  let n := c.toNat
  (9 ≤ n && n ≤ 13) || n = 0x20 || n = 0xA0 || n = 0x1680 || (0x2000 ≤ n && n ≤ 0x200A) ||
    n = 0x2028 || n = 0x2029 || n = 0x202F || n = 0x205F || n = 0x3000 || n = 0xFEFF

/-- `s.length`. -/
def length (s : String) : ℕ :=
  s.toList.foldl (fun n c => n + if c.toNat < 0x10000 then 1 else 2) 0

/-- `s.trim()`. -/
def trim (s : String) : String :=
  String.ofList ((s.toList.dropWhile isWhiteSpace).rdropWhile isWhiteSpace)

/-- The words `cs` is split into at runs of characters that satisfy `sep`, with the empty
ones that `split` keeps at either end. -/
def splitRuns (sep : Char → Bool) : List Char → List (List Char)
  | [] => [[]]
  | c :: cs =>
    let words := splitRuns sep cs
    if sep c then (if cs.head?.any sep then words else [] :: words)
    else (c :: words.headI) :: words.tail

/-- `s.split(/\s+/)`. -/
def splitWhiteSpace (s : String) : List String :=
  (splitRuns isWhiteSpace s.toList).map String.ofList

/-- `s.split(sep)[0]`. -/
def beforeFirst (sep : Char) (s : String) : String := String.ofList (s.toList.takeWhile (· ≠ sep))

/-- `s.split(sep)`, for one character. -/
def split (sep : Char) (s : String) : List String := (s.toList.splitOn sep).map String.ofList

/-- The number a run of decimal digits stands for. -/
def digitsValue (digits : List Char) : ℕ := digits.foldl (fun n c => 10 * n + (c.toNat - '0'.toNat)) 0

/-- An optional sign, then the longest run of digits; `none` for `NaN`. -/
def signedDigits : List Char → Option ℤ
  | '-' :: cs => (signedDigits.unsigned cs).map fun n => -n
  | '+' :: cs => signedDigits.unsigned cs
  | cs => signedDigits.unsigned cs
where
  unsigned (cs : List Char) : Option ℤ :=
    let digits := cs.takeWhile Char.isDigit
    if digits = [] then none else some (digitsValue digits)

/-- `parseInt(s, 10)`, as a mathematical integer: white space in front is skipped, and what follows
the digits is ignored. -/
def parseInt (s : String) : Option ℤ := signedDigits (s.toList.dropWhile isWhiteSpace)

/-- What is left after dropping at the end starts as the whole did. -/
theorem dropWhile_rdropWhile {α : Type*} (p : α → Bool) (l : List α) :
    ((l.dropWhile p).rdropWhile p).dropWhile p = (l.dropWhile p).rdropWhile p := by
  rw [List.dropWhile_eq_self_iff]
  intro hl
  have hprefix := List.rdropWhile_prefix p (l := l.dropWhile p)
  rw [List.IsPrefix.getElem hprefix hl]
  exact List.dropWhile_get_zero_not p l (hl.trans_le hprefix.length_le)

theorem trim_trim (s : String) : trim (trim s) = trim s := by
  simp only [trim, String.toList_ofList, dropWhile_rdropWhile, List.rdropWhile_idempotent]

theorem split_append (sep : Char) (front back : String) :
    split sep (front ++ String.ofList [sep] ++ back) = split sep front ++ split sep back := by
  simp only [split, String.toList_append, String.toList_ofList, List.append_assoc, List.singleton_append,
    List.splitOn_append_cons_self, List.map_append]

theorem split_self {sep : Char} {s : String} (h : sep ∉ s.toList) : split sep s = [s] := by
  rw [split, List.splitOn_eq_singleton h, List.map_singleton, String.ofList_toList]

example : splitWhiteSpace " Ada  Lovelace" = ["", "Ada", "Lovelace"] := by decide

example : ["30", " -7 days", "1.5", "", "x1"].map parseInt = [some 30, some (-7), some 1, none, none] := by
  decide

end JsString
