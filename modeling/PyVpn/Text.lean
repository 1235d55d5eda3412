import PyVpn.Python
import Mathlib.Data.List.DropRight

/-! What the repository uses of `str` and `int` on text: white space, words and lines,
numbers read from text and written in binary. -/
namespace PyVpn

/-- The characters `str.strip()` removes. -/
def isSpace (c : Char) : Bool :=
  let n := c.toNat
  (9 ≤ n && n ≤ 13) || (28 ≤ n && n ≤ 32) || n == 0x85 || n == 0xa0 || n == 0x1680 ||
    (0x2000 ≤ n && n ≤ 0x200a) || n == 0x2028 || n == 0x2029 || n == 0x202f || n == 0x205f ||
    n == 0x3000

def strip (s : List Char) : List Char := (s.dropWhile isSpace).rdropWhile isSpace

def splitWords (s : List Char) : List (List Char) := (s.splitOnP isSpace).filter (· ≠ [])

/-- Text mode reads `\r\n` and `\r` as `\n`. -/
def universalNewlines : List Char → List Char
  | '\r' :: '\n' :: cs => '\n' :: universalNewlines cs
  | '\r' :: cs => '\n' :: universalNewlines cs
  | c :: cs => c :: universalNewlines cs
  | [] => []

/-- `for line in f`, the ends of the lines taken off. Where the text ends with a line end,
one more line is here, and it is empty. -/
def textLines (text : String) : List (List Char) := (universalNewlines text.toList).splitOn '\n'

/-- The zeros of the runs of ten decimal digits in Unicode. -/
def decimalZeros : List Nat :=
  [0x30, 0x660, 0x6f0, 0x7c0, 0x966, 0x9e6, 0xa66, 0xae6, 0xb66, 0xbe6, 0xc66, 0xce6, 0xd66, 0xde6,
    0xe50, 0xed0, 0xf20, 0x1040, 0x1090, 0x17e0, 0x1810, 0x1946, 0x19d0, 0x1a80, 0x1a90, 0x1b50,
    0x1bb0, 0x1c40, 0x1c50, 0xa620, 0xa8d0, 0xa900, 0xa9d0, 0xa9f0, 0xaa50, 0xabf0, 0xff10,
    0x104a0, 0x10d30, 0x11066, 0x110f0, 0x11136, 0x111d0, 0x112f0, 0x11450, 0x114d0, 0x11650,
    0x116c0, 0x11730, 0x118e0, 0x11950, 0x11c50, 0x11d50, 0x11da0, 0x16a60, 0x16ac0, 0x16b50,
    0x1d7ce, 0x1d7d8, 0x1d7e2, 0x1d7ec, 0x1d7f6, 0x1e140, 0x1e2f0, 0x1e950, 0x1fbf0]

def decimalDigit (c : Char) : Option Nat :=
  (decimalZeros.find? fun z => z ≤ c.toNat ∧ c.toNat < z + 10).map (c.toNat - ·)

def readDigits : List Char → Option (List Nat)
  | [] => none
  | [c] => (decimalDigit c).map fun d => [d]
  | c :: '_' :: cs => do return (← decimalDigit c) :: (← readDigits cs)
  | c :: cs => do return (← decimalDigit c) :: (← readDigits cs)

/-- `int` skips the spaces of `strip` but for the ASCII separators. -/
def isIntSpace (c : Char) : Bool := isSpace c && !(28 ≤ c.toNat && c.toNat ≤ 31)

/-- The limit of the interpreter on the digits of a number. -/
def maxStrDigits : Nat := 4300

def readNat (s : List Char) : Except PyError Nat :=
  match readDigits s with
  | none => .error .valueError
  | some digits =>
    if digits.length > maxStrDigits then .error .valueError
    else .ok (digits.foldl (fun n d => 10 * n + d) 0)

def intOfStr (s : String) : Except PyError Int :=
  match (s.toList.dropWhile isIntSpace).rdropWhile isIntSpace with
  | '-' :: digits => (readNat digits).map fun n => -Int.ofNat n
  | '+' :: digits => (readNat digits).map Int.ofNat
  | digits => (readNat digits).map Int.ofNat

def format08b (n : Int) : List Char :=
  if n < 0 then '-' :: (Nat.toDigits 2 n.natAbs).leftpad 7 '0'
  else (Nat.toDigits 2 n.natAbs).leftpad 8 '0'

theorem intOfStr_cases (s : String) : intOfStr s = .error .valueError ∨ ∃ n, intOfStr s = .ok n := by
  have hread (digits : List Char) (f : Nat → Int) :
      (readNat digits).map f = .error .valueError ∨ ∃ n, (readNat digits).map f = .ok n := by
    unfold readNat
    cases readDigits digits with
    | none => exact .inl rfl
    | some digits =>
      simp only
      split
      · exact .inl rfl
      · exact .inr ⟨_, rfl⟩
  unfold intOfStr
  split <;> exact hread _ _

theorem splitWords_ne_nil {s : List Char} {c : Char} (hc : c ∈ s) (hspace : isSpace c = false) :
    splitWords s ≠ [] := by
  induction s with
  | nil => cases hc
  | cons d s ih =>
    unfold splitWords at ih ⊢
    rw [List.splitOnP_cons_eq_if_modifyHead]
    by_cases hd : isSpace d = true
    · have hne : c ≠ d := by
        intro heq
        rw [heq, hd] at hspace
        cases hspace
      rw [if_pos hd, List.filter_cons_of_neg (by simp)]
      exact ih ((List.mem_cons.mp hc).resolve_left hne)
    · rw [if_neg hd]
      cases hpieces : s.splitOnP isSpace with
      | nil => exact absurd hpieces (List.splitOnP_ne_nil _ _)
      | cons piece pieces =>
        rw [List.modifyHead_cons, List.filter_cons_of_pos (by simp)]
        exact List.cons_ne_nil _ _

theorem splitWords_strip {s : List Char} (h : strip s ≠ []) : splitWords (strip s) ≠ [] := by
  have hlast : isSpace ((strip s).getLast h) = false :=
    Bool.eq_false_iff.mpr (List.rdropWhile_last_not isSpace (s.dropWhile isSpace) h)
  exact splitWords_ne_nil (List.getLast_mem h) hlast

end PyVpn
