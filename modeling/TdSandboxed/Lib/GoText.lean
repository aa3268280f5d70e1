/-
TdSandboxed.Lib.GoText — texts as Go's `strings` package takes them, over
lists of characters.
-/
import Mathlib.Data.List.Basic

namespace TdSandboxed.Lib

/-- `unicode.IsSpace` -/
def isSpace (c : Char) : Bool :=
  let n := c.toNat
  (9 ≤ n && n ≤ 13) || n = 0x20 || n = 0x85 || n = 0xA0 || n = 0x1680 ||
    (0x2000 ≤ n && n ≤ 0x200A) || n = 0x2028 || n = 0x2029 || n = 0x202F || n = 0x205F || n = 0x3000

/-- `strings.TrimSpace` -/
def trimSpace (cs : List Char) : List Char :=
  ((cs.dropWhile isSpace).reverse.dropWhile isSpace).reverse

theorem trimSpace_sublist (cs : List Char) : (trimSpace cs).Sublist cs := by
  have hdrop : ∀ ds : List Char, (ds.dropWhile isSpace).Sublist ds :=
    fun ds => (List.dropWhile_suffix isSpace).sublist
  have hback := hdrop (cs.dropWhile isSpace).reverse
  rw [← List.reverse_sublist, List.reverse_reverse] at hback
  exact hback.trans (hdrop cs)

/-- A text without blanks at its ends is left alone. -/
theorem trimSpace_eq_self {cs : List Char} (hhead : ∀ c ∈ cs.head?, isSpace c = false)
    (hlast : ∀ c ∈ cs.getLast?, isSpace c = false) : trimSpace cs = cs := by
  have hdrop : ∀ ds : List Char, (∀ c ∈ ds.head?, isSpace c = false) → ds.dropWhile isSpace = ds := by
    intro ds hds
    cases ds with
    | nil => rfl
    | cons d ds => rw [List.dropWhile_cons_of_neg (by simp [hds d rfl])]
  rw [trimSpace, hdrop cs hhead, hdrop cs.reverse (by rwa [List.head?_reverse]), List.reverse_reverse]

end TdSandboxed.Lib
